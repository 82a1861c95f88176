import Mathlib.Data.List.Forall2
import Winnow.Proofs.ExpressionMeaning
import Winnow.Proofs.SplitPieces

open List (Forall₂)

namespace Winnow

/-- Both texts are empty, or neither is. -/
def EmptyAlike (v v' : String) : Prop := v = "" ↔ v' = ""

instance (v v' : String) : Decidable (EmptyAlike v v') :=
  inferInstanceAs (Decidable (v = "" ↔ v' = ""))

namespace Call

def blankValues : Except Value (List Value) → Except Value (List Value)
  | .ok values => .ok (List.replicate values.length .null)
  | .error _ => .error .null

/-- A call without its values; of a list the length is left. -/
def blank : Call → Call
  | filter column operator _ => filter column operator .null
  | orFilter column operator _ => orFilter column operator .null
  | filterNot column operator _ => filterNot column operator .null
  | filterIn column values => filterIn column (blankValues values)
  | filterNotIn column values => filterNotIn column (blankValues values)
  | filterBetween column bounds => filterBetween column (blankValues bounds)
  | filterNotBetween column bounds => filterNotBetween column (blankValues bounds)
  | filterNull column => filterNull column
  | filterNotNull column => filterNotNull column
  | join table first operator second joinKind => join table first operator second joinKind
  | select entries => select entries
  | orderBy column direction => orderBy column direction

end Call

namespace EmptyAlike

theorem refl (v : String) : EmptyAlike v v := Iff.rfl

theorem all (vs : List String) : Forall₂ EmptyAlike vs vs := List.forall₂_same.mpr fun v _ => refl v

theorem getD {vs vs' : List String} (h : Forall₂ EmptyAlike vs vs') (i : Nat) :
    EmptyAlike (vs.getD i "") (vs'.getD i "") := by
  induction h generalizing i with
  | nil => exact refl ""
  | cons hv _ ih =>
    cases i with
    | zero => exact hv
    | succ i => exact ih i

theorem eq_singleton {vs vs' : List String} (h : Forall₂ EmptyAlike vs vs') :
    vs = [""] ↔ vs' = [""] := by
  match h with
  | .nil => exact Iff.rfl
  | .cons hv .nil => simpa [EmptyAlike] using hv
  | .cons _ (.cons _ _) => simp

end EmptyAlike

/-- Operands of a condition that are empty alike, as a whole and in the parts of a list. -/
structure OperandsLikened (v v' : String) : Prop where
  whole : EmptyAlike v v'
  parts : Forall₂ EmptyAlike (splitAt ',' v) (splitAt ',' v')

/-- Predicates of one kind on one column, with as many operands, of which the same are empty. -/
structure Predicate.Likened (p p' : Predicate) : Prop where
  column : p.column = p'.column
  kind : p.kind = p'.kind
  operands : Forall₂ EmptyAlike p.operands p'.operands

namespace Predicate

def KindLikened (p p' : FilterKind × List String) : Prop :=
  p.1 = p'.1 ∧ Forall₂ EmptyAlike p.2 p'.2

variable {v v' : String}

theorem bounds_likened (h : OperandsLikened v v') :
    Forall₂ EmptyAlike (bounds v) (bounds v') := by
  rw [bounds_eq, bounds_eq]
  exact .cons (EmptyAlike.getD h.parts 0) (.cons (EmptyAlike.getD h.parts 1) .nil)

theorem plain?_likened (keyword : String) (h : OperandsLikened v v') :
    Option.Rel KindLikened (plain? keyword v) (plain? keyword v') := by
  have hsingle : Forall₂ EmptyAlike [v] [v'] := .cons h.whole .nil
  unfold plain?
  by_cases hv : v = ""
  · rw [if_pos hv, if_pos (h.whole.mp hv)]
    exact .none
  · rw [if_neg hv, if_neg (mt h.whole.mpr hv)]
    split
    next => exact .some ⟨rfl, hsingle⟩
    next => exact .some ⟨rfl, hsingle⟩
    next => exact .some ⟨rfl, hsingle⟩
    next => exact .some ⟨rfl, hsingle⟩
    next => exact .some ⟨rfl, bounds_likened h⟩
    next => exact .some ⟨rfl, h.parts⟩
    next => exact .none

theorem negated?_likened (keyword : String) (h : OperandsLikened v v') :
    Option.Rel KindLikened (negated? keyword v) (negated? keyword v') := by
  have hplain := plain?_likened keyword h
  rw [negated?_eq, negated?_eq]
  generalize plain? keyword v = found at hplain ⊢
  generalize plain? keyword v' = found' at hplain ⊢
  cases hplain with
  | none => exact .none
  | some hp => exact .some ⟨congrArg FilterKind.negation hp.1, hp.2⟩

theorem kindLikened_refl (found : Option (FilterKind × List String)) :
    Option.Rel KindLikened found found := by
  cases found with
  | none => exact .none
  | some p => exact .some ⟨rfl, EmptyAlike.all p.2⟩

theorem likened_refl (found : Option Predicate) :
    Option.Rel Predicate.Likened found found := by
  cases found with
  | none => exact .none
  | some p => exact .some ⟨rfl, rfl, EmptyAlike.all p.operands⟩

/-- Words that can stand before an operand: neither `not` nor `is` makes an operator alone. -/
structure Operator (words : List String) : Prop where
  ne_nil : words ≠ []
  ne_not : words ≠ ["not"]
  ne_is : words ≠ ["is"]

instance (words : List String) : Decidable (Operator words) :=
  decidable_of_iff (words ≠ [] ∧ words ≠ ["not"] ∧ words ≠ ["is"])
    ⟨fun h => ⟨h.1, h.2.1, h.2.2⟩, fun h => ⟨h.ne_nil, h.ne_not, h.ne_is⟩⟩

theorem ofTokens?_likened {words : List String} (ho : Operator words) (h : OperandsLikened v v')
    (rest : List String) :
    Option.Rel KindLikened (ofTokens? (words ++ v :: rest)) (ofTokens? (words ++ v' :: rest)) := by
  match words, ho with
  | [], ho => exact absurd rfl ho.ne_nil
  | [first], ho =>
    unfold ofTokens?
    simp only [List.cons_append, List.nil_append, List.getD_cons_zero, List.getD_cons_succ]
    split
    next => exact absurd rfl ho.ne_not
    next => exact absurd rfl ho.ne_is
    next => exact plain?_likened first h
  | [first, second], _ =>
    unfold ofTokens?
    simp only [List.cons_append, List.nil_append, List.getD_cons_zero, List.getD_cons_succ]
    split
    next => exact negated?_likened second h
    next => exact kindLikened_refl _
    next => exact kindLikened_refl _
  | first :: second :: third :: others, _ =>
    exact kindLikened_refl (ofTokens? [first, second, third])

theorem blank_range {column low high low' high' : String} (hl : EmptyAlike low low')
    (hh : EmptyAlike high high') {kind : FilterKind} (hk : kind = .between ∨ kind = .notBetween) :
    (calls ⟨column, kind, [low', high']⟩).map (·.map Call.blank) =
      (calls ⟨column, kind, [low, high]⟩).map (·.map Call.blank) := by
  unfold EmptyAlike at hl hh
  rcases hk with rfl | rfl
  · simp only [calls, hl, hh]
    by_cases h : low' = "" <;> by_cases h' : high' = "" <;>
      simp only [h, h', ↓reduceIte] <;> rfl
  · simp only [calls, hl, hh]
    by_cases h : low' = "" <;> by_cases h' : high' = "" <;>
      simp only [h, h', ↓reduceIte] <;> rfl

theorem Likened.calls {p p' : Predicate} (h : p.Likened p') :
    p'.calls.map (·.map Call.blank) = p.calls.map (·.map Call.blank) := by
  obtain ⟨column, kind, operands⟩ := p
  obtain ⟨_, _, operands'⟩ := p'
  obtain ⟨rfl, rfl, ho⟩ := h
  simp only at ho
  have hlist : Call.blankValues (.ok (operands'.map .text)) =
      Call.blankValues (.ok (operands.map .text)) := by
    simp [Call.blankValues, ho.length_eq]
  cases kind with
  | between =>
    match ho with
    | .nil => rfl
    | .cons _ .nil => rfl
    | .cons hl (.cons hh .nil) => exact blank_range hl hh (.inl rfl)
    | .cons _ (.cons _ (.cons _ _)) => rfl
  | notBetween =>
    match ho with
    | .nil => rfl
    | .cons _ .nil => rfl
    | .cons hl (.cons hh .nil) => exact blank_range hl hh (.inr rfl)
    | .cons _ (.cons _ (.cons _ _)) => rfl
  | oneOf => exact congrArg (fun values => Except.ok [Call.filterIn column values]) hlist
  | notOneOf => exact congrArg (fun values => Except.ok [Call.filterNotIn column values]) hlist
  | isNull => rfl
  | isNotNull => rfl
  | _ => cases ho <;> rfl

end Predicate

/-- A condition with an operand, taken apart: the words before the operand, the values that the
operand is made of, and what follows it. -/
structure Phrase where
  column : String
  words : List String
  values : List String
  rest : List String := []

namespace Phrase

def operand (p : Phrase) : String := ",".intercalate p.values

def tokens (p : Phrase) : List String := p.words ++ p.operand :: p.rest

def condition (p : Phrase) : Condition := ⟨p.column, "_".intercalate p.tokens⟩

/-- A condition that is read as it was put together, also when it stands between marks. -/
structure WellFormed (mark : Char) (p : Phrase) : Prop where
  column_ne : p.column ≠ ""
  column_free : ':' ∉ p.column.toList
  operator : Predicate.Operator p.words
  words_free : ∀ word ∈ p.words ++ p.rest, '_' ∉ word.toList
  values_ne : p.values ≠ []
  values_free : ∀ v ∈ p.values, '_' ∉ v.toList ∧ ',' ∉ v.toList
  free : mark ∉ p.condition.written.toList

instance (mark : Char) (p : Phrase) : Decidable (p.WellFormed mark) :=
  decidable_of_iff (p.column ≠ "" ∧ ':' ∉ p.column.toList ∧ Predicate.Operator p.words ∧
      (∀ word ∈ p.words ++ p.rest, '_' ∉ word.toList) ∧ p.values ≠ [] ∧
      (∀ v ∈ p.values, '_' ∉ v.toList ∧ ',' ∉ v.toList) ∧ mark ∉ p.condition.written.toList)
    ⟨fun h => ⟨h.1, h.2.1, h.2.2.1, h.2.2.2.1, h.2.2.2.2.1, h.2.2.2.2.2.1, h.2.2.2.2.2.2⟩,
      fun h => ⟨h.column_ne, h.column_free, h.operator, h.words_free, h.values_ne, h.values_free,
        h.free⟩⟩

/-- The same condition up to its operand, which has as many values, of which the same are empty. -/
structure Likened (p p' : Phrase) : Prop where
  column : p.column = p'.column
  words : p.words = p'.words
  values : Forall₂ EmptyAlike p.values p'.values
  rest : p.rest = p'.rest

variable {mark : Char} {p p' : Phrase}

theorem WellFormed.splitAt_operand (h : p.WellFormed mark) : splitAt ',' p.operand = p.values :=
  splitAt_intercalate h.values_ne fun v hv => (h.values_free v hv).2

theorem WellFormed.splitAt_expression (h : p.WellFormed mark) :
    splitAt '_' p.condition.expression = p.tokens := by
  refine splitAt_intercalate (by simp [tokens]) fun token ht => ?_
  have hoperand : '_' ∉ p.operand.toList := by
    unfold operand
    rw [String.toList_intercalate]
    refine not_mem_intercalate (by decide) fun cs hcs => ?_
    obtain ⟨v, hv, rfl⟩ := List.mem_map.mp hcs
    exact (h.values_free v hv).1
  have hwords := h.words_free
  simp only [tokens, List.mem_append, List.mem_cons] at ht
  rcases ht with hw | rfl | hr
  · exact hwords token (by simp [hw])
  · exact hoperand
  · exact hwords token (by simp [hr])

theorem WellFormed.read (h : p.WellFormed mark) :
    Segment.read p.condition.written = .condition p.condition := by
  have hexpression : p.condition.expression ≠ "" := by
    intro he
    have htokens := h.splitAt_expression
    rw [he] at htokens
    have hlength : p.tokens.length = 1 := by
      rw [← htokens, splitAt_empty]
      rfl
    have hwords := List.length_pos_iff.mpr h.operator.ne_nil
    simp only [tokens, List.length_append, List.length_cons] at hlength
    omega
  unfold Segment.read Condition.written
  have hhalves : halves ':' (p.condition.column ++ ":" ++ p.condition.expression) =
      some (p.condition.column, p.condition.expression) :=
    halves_append h.column_ne hexpression h.column_free
  rw [hhalves]

theorem WellFormed.operand_eq_empty (h : p.WellFormed mark) : p.operand = "" ↔ p.values = [""] :=
  (intercalate_eq_empty fun v hv => (h.values_free v hv).2).trans (or_iff_right h.values_ne)

theorem WellFormed.written_ne (h : p.WellFormed mark) : p.condition.written ≠ "" := by
  unfold Condition.written
  rw [Ne, String.append_eq_empty_iff, String.append_eq_empty_iff]
  exact fun hw => h.column_ne hw.1.1

theorem Likened.operands (h : p.WellFormed mark) (h' : p'.WellFormed mark) (hl : p.Likened p') :
    OperandsLikened p.operand p'.operand := by
  refine ⟨?_, by rw [h.splitAt_operand, h'.splitAt_operand]; exact hl.values⟩
  exact h.operand_eq_empty.trans
    ((EmptyAlike.eq_singleton hl.values).trans h'.operand_eq_empty.symm)

theorem Likened.compile (h : p.WellFormed mark) (h' : p'.WellFormed mark) (hl : p.Likened p')
    (column : String) : Option.Rel Predicate.Likened
      (Predicate.compile column p.condition.expression)
      (Predicate.compile column p'.condition.expression) := by
  have htokens : Option.Rel Predicate.KindLikened (Predicate.ofTokens? p.tokens)
      (Predicate.ofTokens? p'.tokens) := by
    unfold tokens
    rw [← hl.words, ← hl.rest]
    exact Predicate.ofTokens?_likened h.operator (hl.operands h h') p.rest
  unfold Predicate.compile
  rw [h.splitAt_expression, h'.splitAt_expression]
  generalize Predicate.ofTokens? p.tokens = found at htokens ⊢
  generalize Predicate.ofTokens? p'.tokens = found' at htokens ⊢
  cases htokens with
  | none => exact .none
  | some hk => exact .some ⟨rfl, hk.1, hk.2⟩

end Phrase

/-- Conditions on one column, the expressions of which compile to the same but for the operands. -/
structure Condition.Likened (c c' : Condition) : Prop where
  column : c.column = c'.column
  compile (column : String) : Option.Rel Predicate.Likened (Predicate.compile column c.expression)
    (Predicate.compile column c'.expression)

/-- Segments that are both malformed, or hold conditions alike. -/
inductive Segment.Likened : Segment → Segment → Prop
  | malformed {text text' : String} : Likened (.malformed text) (.malformed text')
  | condition {c c' : Condition} : c.Likened c' → Likened (.condition c) (.condition c')

theorem Segment.Likened.upTo {segments segments' : List Segment}
    (h : Forall₂ Segment.Likened segments segments') (n : Nat) :
    Forall₂ Segment.Likened (Segment.upTo n segments) (Segment.upTo n segments') := by
  induction h generalizing n with
  | nil => cases n <;> exact .nil
  | cons hs hrest ih =>
    cases n with
    | zero => exact .nil
    | succ n =>
      cases hs with
      | malformed => exact .cons .malformed (ih (n + 1))
      | condition hc => exact .cons (.condition hc) (ih n)

/-- A piece of a text as it stands, or two conditions that differ in their operands. -/
inductive PieceLikened (mark : Char) : String → String → Prop
  | same {piece : String} : mark ∉ piece.toList → PieceLikened mark piece piece
  | phrase {p p' : Phrase} : p.WellFormed mark → p'.WellFormed mark → p.Likened p' →
      PieceLikened mark p.condition.written p'.condition.written

namespace PieceLikened

variable {mark : Char} {piece piece' : String} {pieces pieces' : List String}

theorem free (h : PieceLikened mark piece piece') : mark ∉ piece.toList ∧ mark ∉ piece'.toList := by
  cases h with
  | same h => exact ⟨h, h⟩
  | phrase hp hp' => exact ⟨hp.free, hp'.free⟩

theorem read (h : PieceLikened mark piece piece') :
    (Segment.read piece).Likened (Segment.read piece') := by
  cases h with
  | same =>
    cases Segment.read piece with
    | malformed => exact .malformed
    | condition c => exact .condition ⟨rfl, fun column => Predicate.likened_refl _⟩
  | phrase hp hp' hl =>
    rw [hp.read, hp'.read]
    exact .condition ⟨hl.column, hl.compile hp hp'⟩

theorem emptyAlike (h : PieceLikened mark piece piece') : EmptyAlike piece piece' := by
  cases h with
  | same => exact .refl piece
  | phrase hp hp' => exact iff_of_false hp.written_ne hp'.written_ne

theorem all_free (h : Forall₂ (PieceLikened mark) pieces pieces') :
    (∀ piece ∈ pieces, mark ∉ piece.toList) ∧ ∀ piece ∈ pieces', mark ∉ piece.toList := by
  induction h with
  | nil => simp
  | cons hp _ ih =>
    exact ⟨List.forall_mem_cons.mpr ⟨hp.free.1, ih.1⟩, List.forall_mem_cons.mpr ⟨hp.free.2, ih.2⟩⟩

theorem intercalate_emptyAlike (h : Forall₂ (PieceLikened mark) pieces pieces') :
    EmptyAlike ((String.singleton mark).intercalate pieces)
      ((String.singleton mark).intercalate pieces') := by
  have hnil : pieces = [] ↔ pieces' = [] := by
    rw [← List.length_eq_zero_iff, ← List.length_eq_zero_iff, h.length_eq]
  have hone := EmptyAlike.eq_singleton (h.imp fun _ _ => emptyAlike)
  unfold EmptyAlike
  rw [intercalate_eq_empty (all_free h).1, intercalate_eq_empty (all_free h).2, hnil, hone]

theorem scan (h : Forall₂ (PieceLikened mark) pieces pieces') (limit : Option Int) :
    ∃ segments segments',
      Segment.scan (String.singleton mark) limit ((String.singleton mark).intercalate pieces) =
        .ok segments ∧
      Segment.scan (String.singleton mark) limit ((String.singleton mark).intercalate pieces') =
        .ok segments' ∧
      Forall₂ Segment.Likened segments segments' := by
  have hempty : (String.singleton mark).intercalate pieces = "" ↔
      (String.singleton mark).intercalate pieces' = "" := intercalate_emptyAlike h
  have hfree := all_free h
  unfold Segment.scan
  by_cases hraw : (String.singleton mark).intercalate pieces = "" || limit.any (· < 1)
  · have hraw' : (String.singleton mark).intercalate pieces' = "" || limit.any (· < 1) := by
      simpa [hempty] using hraw
    rw [if_pos hraw, if_pos hraw']
    exact ⟨[], [], rfl, rfl, .nil⟩
  · have hraw' : ¬((String.singleton mark).intercalate pieces' = "" || limit.any (· < 1)) := by
      simpa [hempty] using hraw
    have hne : pieces ≠ [] := by
      rintro rfl
      exact hraw (by simp)
    have hne' : pieces' ≠ [] := by
      rintro rfl
      exact hraw' (by simp)
    have hread : Forall₂ Segment.Likened (pieces.map Segment.read) (pieces'.map Segment.read) :=
      List.forall₂_map_left_iff.mpr (List.forall₂_map_right_iff.mpr (h.imp fun _ _ => read))
    rw [if_neg hraw, if_neg hraw', splitOn?_singleton, splitOn?_singleton,
      splitAt_intercalate hne hfree.1, splitAt_intercalate hne' hfree.2]
    refine ⟨_, _, rfl, rfl, ?_⟩
    cases limit with
    | none => exact hread
    | some n => exact Segment.Likened.upTo hread n.toNat

end PieceLikened

end Winnow
