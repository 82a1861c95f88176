import Mathlib.Data.List.Forall2
import Winnow.Proofs.SeparatedText
import Winnow.Relation.Route

open List (Forall₂)

namespace Winnow

/-- A reference names a table and a column; they stand around its first dot. -/
def Refers (reference table column : String) : Prop :=
  reference = table ++ "." ++ column ∧ '.' ∉ table.toList ∧ table ≠ "" ∧ column ≠ ""

/-- Both references of a pair name a table and a column. -/
def Complete (pair : String × String) : Prop :=
  (∃ table column, Refers pair.1 table column) ∧ ∃ table column, Refers pair.2 table column

theorem halves_eq_some_iff_refers {reference table column : String} :
    halves '.' reference = some (table, column) ↔ Refers reference table column :=
  halves_eq_some

namespace Hop

variable {pair : String × String} {hop : Hop} {left right : String}

/-- A hop that joins the columns to which a pair refers. -/
structure Joins (hop : Hop) (pair : String × String) : Prop where
  left : Refers pair.1 hop.fromTable hop.fromKey
  right : Refers pair.2 hop.toTable hop.toKey

theorem ofPair?_eq_some : ofPair? pair = some hop ↔ hop.Joins pair := by
  constructor
  · intro h
    unfold ofPair? at h
    split at h
    next hfrom hto =>
      cases h
      exact ⟨halves_eq_some_iff_refers.mp hfrom, halves_eq_some_iff_refers.mp hto⟩
    next => cases h
  · intro ⟨hfrom, hto⟩
    unfold ofPair?
    rw [halves_eq_some_iff_refers.mpr hfrom, halves_eq_some_iff_refers.mpr hto]

theorem isSome_ofPair?_iff : (ofPair? pair).isSome = true ↔ Complete pair := by
  rw [Option.isSome_iff_exists]
  constructor
  · intro ⟨hop, h⟩
    obtain ⟨hfrom, hto⟩ := ofPair?_eq_some.mp h
    exact ⟨⟨_, _, hfrom⟩, _, _, hto⟩
  · intro ⟨⟨fromTable, fromKey, hfrom⟩, toTable, toKey, hto⟩
    exact ⟨⟨fromTable, fromKey, toTable, toKey⟩, ofPair?_eq_some.mpr ⟨hfrom, hto⟩⟩

theorem ofPair?_eq_none : ofPair? pair = none ↔ ¬Complete pair := by
  rw [← isSome_ofPair?_iff, Bool.not_eq_true, Option.isSome_eq_false_iff, Option.isNone_iff_eq_none]

end Hop

instance : DecidablePred Complete := fun _ => decidable_of_iff _ Hop.isSome_ofPair?_iff

/-- The pairs of a chain that make a hop. -/
def Relation.pairs (rel : Relation) : List (String × String) := rel.chain.filter (Complete ·)

/-- The hop in a place of a route from `base` says what its pair says; the first one starts at
`base`, whatever table the pair names there. -/
structure Hop.Follows (base : String) (place : Nat) (hop : Hop) (pair : String × String) :
    Prop where
  toColumn : hop.toColumn = pair.2
  right : Refers pair.2 hop.toTable hop.toKey
  first : place = 0 → hop.fromColumn = base ++ "." ++ hop.fromKey ∧ hop.fromTable = base ∧
    ∃ table, Refers pair.1 table hop.fromKey
  later : 0 < place → hop.fromColumn = pair.1 ∧ Refers pair.1 hop.fromTable hop.fromKey

namespace Route

variable {base : String} {name : Value} {rel : Relation} {chain : List (String × String)}

theorem hops_of_pairs (chain : List (String × String)) :
    Forall₂ (fun pair hop => Hop.Joins hop pair) (chain.filter (Complete ·))
      (chain.filterMap Hop.ofPair?) := by
  induction chain with
  | nil => exact .nil
  | cons pair chain ih =>
    cases hp : Hop.ofPair? pair with
    | none =>
      have hother : ¬Complete pair := Hop.ofPair?_eq_none.mp hp
      rw [List.filterMap_cons_none hp, List.filter_cons_of_neg (by simpa using hother)]
      exact ih
    | some hop =>
      have hcomplete : Complete pair := Hop.isSome_ofPair?_iff.mp (by rw [hp]; rfl)
      rw [List.filterMap_cons_some hp, List.filter_cons_of_pos (by simpa using hcomplete)]
      exact .cons (Hop.ofPair?_eq_some.mp hp) ih

theorem getElem?_rebase (hops : List Hop) (i : Nat) : (rebase base hops)[i]? =
    hops[i]?.map fun hop => if i = 0 then { hop with fromTable := base } else hop := by
  cases hops with
  | nil => rfl
  | cons hop hops =>
    cases i with
    | zero => rfl
    | succ i => simp [rebase]

theorem length_rebase (hops : List Hop) : (rebase base hops).length = hops.length := by
  cases hops <;> rfl

theorem follows_of_getElem? {i : Nat} {pair : String × String} {hop : Hop}
    (hp : rel.pairs[i]? = some pair) (hh : (ofRelation base name rel).hops[i]? = some hop) :
    hop.Follows base i pair := by
  unfold ofRelation at hh
  rw [getElem?_rebase] at hh
  obtain ⟨named, hn, rfl⟩ := Option.map_eq_some_iff.mp hh
  obtain ⟨hip, rfl⟩ := List.getElem?_eq_some_iff.mp hp
  obtain ⟨hih, rfl⟩ := List.getElem?_eq_some_iff.mp hn
  obtain ⟨hleft, hright⟩ := (List.forall₂_iff_get.mp (hops_of_pairs rel.chain)).2 i hip hih
  split
  next hfirst =>
    exact ⟨hright.1.symm, hright, fun _ => ⟨rfl, rfl, _, hleft⟩, fun hlater => by omega⟩
  next hlater =>
    exact ⟨hright.1.symm, hright, fun hfirst => absurd hfirst hlater,
      fun _ => ⟨hleft.1.symm, hleft⟩⟩

theorem length_hops : (ofRelation base name rel).hops.length = rel.pairs.length := by
  unfold ofRelation
  rw [length_rebase]
  exact (hops_of_pairs rel.chain).length_eq.symm

theorem hops_eq_nil :
    (ofRelation base name rel).hops = [] ↔ ∀ pair ∈ rel.chain, ¬Complete pair := by
  rw [← List.length_eq_zero_iff, length_hops, List.length_eq_zero_iff]
  unfold Relation.pairs
  rw [List.filter_eq_nil_iff]
  simp only [decide_eq_true_eq]

theorem target_eq_none :
    (ofRelation base name rel).target = none ↔ ∀ pair ∈ rel.chain, ¬Complete pair := by
  rw [← @hops_eq_nil base name rel, target, Option.map_eq_none_iff,
    List.getLast?_eq_none_iff]

theorem target_of_getLast? {pair : String × String} (h : rel.pairs.getLast? = some pair) :
    ∃ table column, (ofRelation base name rel).target = some table ∧
      Refers pair.2 table column := by
  rw [List.getLast?_eq_getElem?] at h
  obtain ⟨hlt, -⟩ := List.getElem?_eq_some_iff.mp h
  rw [← @length_hops base name rel] at h hlt
  obtain ⟨-, hright, -, -⟩ := follows_of_getElem? h (List.getElem?_eq_getElem hlt)
  refine ⟨_, _, ?_, hright⟩
  rw [target, List.getLast?_eq_getElem?, List.getElem?_eq_getElem hlt]
  rfl

theorem ofRelation_pairs :
    ofRelation base name { rel with chain := rel.pairs } = ofRelation base name rel := by
  have hmake : ∀ pair : String × String,
      (if Complete pair then Hop.ofPair? pair else none) = Hop.ofPair? pair := by
    intro pair
    split
    next => rfl
    next hc => exact (Hop.ofPair?_eq_none.mpr hc).symm
  unfold ofRelation Relation.pairs
  simp only [List.filterMap_filter, decide_eq_true_eq, hmake]

theorem ofRelation_start {before later : List (String × String)}
    {left right table column start : String}
    (hchain : rel.chain = before ++ (left, right) :: later)
    (hbefore : ∀ pair ∈ before, ¬Complete pair) (hleft : Refers left table column)
    (hne : start ≠ "") (hdot : '.' ∉ start.toList) :
    ofRelation base name
        { rel with chain := before ++ (start ++ "." ++ column, right) :: later } =
      ofRelation base name rel := by
  have hstart : Refers (start ++ "." ++ column) start column := ⟨rfl, hdot, hne, hleft.2.2.2⟩
  have hnone : before.filterMap Hop.ofPair? = [] :=
    List.filterMap_eq_nil_iff.mpr fun pair hp => Hop.ofPair?_eq_none.mpr (hbefore pair hp)
  unfold ofRelation
  simp only [hchain, List.filterMap_append, hnone, List.nil_append]
  congr 1
  by_cases hright : ∃ toTable toKey, Refers right toTable toKey
  · obtain ⟨toTable, toKey, hright⟩ := hright
    have hhop : ∀ {reference named : String}, Refers reference named column →
        Hop.ofPair? (reference, right) = some ⟨named, column, toTable, toKey⟩ :=
      fun h => Hop.ofPair?_eq_some.mpr ⟨h, hright⟩
    rw [List.filterMap_cons_some (hhop hstart), List.filterMap_cons_some (hhop hleft)]
    rfl
  · rw [List.filterMap_cons_none (Hop.ofPair?_eq_none.mpr fun h => hright h.2),
      List.filterMap_cons_none (Hop.ofPair?_eq_none.mpr fun h => hright h.2)]

/-- A route has the hops of its chain's complete pairs, one for each, in their order, and every hop
says what its pair says, except that the first one starts at the base table. It has no hop and
leads nowhere exactly when no pair is complete, and leads to the table on the right of the last
complete pair otherwise. Leaving out the other pairs beforehand, or naming the base table where the
first hop starts, gives the same route. -/
theorem chain_followed (base : String) (name : Value) (rel : Relation) :
    let route := ofRelation base name rel
    (route.hops.length = rel.pairs.length ∧ ∀ (i : Nat) (pair : String × String) (hop : Hop),
        rel.pairs[i]? = some pair → route.hops[i]? = some hop → hop.Follows base i pair) ∧
      (route.hops = [] ↔ ∀ pair ∈ rel.chain, ¬Complete pair) ∧
      (route.target = none ↔ ∀ pair ∈ rel.chain, ¬Complete pair) ∧
      (∀ pair, rel.pairs.getLast? = some pair →
        ∃ table column, route.target = some table ∧ Refers pair.2 table column) ∧
      ofRelation base name { rel with chain := rel.pairs } = route ∧
      ∀ (before later : List (String × String)) (left right table column : String),
        rel.chain = before ++ (left, right) :: later → (∀ pair ∈ before, ¬Complete pair) →
          Refers left table column → base ≠ "" → '.' ∉ base.toList →
          ofRelation base name
            { rel with chain := before ++ (base ++ "." ++ column, right) :: later } = route :=
  ⟨⟨length_hops, fun _ _ _ => follows_of_getElem?⟩, hops_eq_nil, target_eq_none,
    fun _ => target_of_getLast?, ofRelation_pairs,
    fun _ _ _ _ _ _ hchain hbefore hleft hne hdot =>
      ofRelation_start hchain hbefore hleft hne hdot⟩

/-- Articles with the countries of their authors, among pairs of which some are not complete. -/
def countryOfAuthor : Relation where
  chain := [("author_id", "authors.id"), ("articles.", "authors.id"),
    ("posts.author.id", "authors.id"), ("authors.id", ".id"),
    ("authors.country", "countries.code.2")]

theorem chain_followed_country :
    (∀ pair ∈ [("author_id", "authors.id"), ("articles.", "authors.id")], ¬Complete pair) ∧
      Refers "posts.author.id" "posts" "author.id" ∧
      (ofRelation "articles" (.text "country") countryOfAuthor).hops.length = 2 ∧
      (∃ table column, (ofRelation "articles" (.text "country") countryOfAuthor).target =
        some table ∧ Refers "countries.code.2" table column) ∧
      ofRelation "articles" (.text "country") { countryOfAuthor with
        chain := [("author_id", "authors.id"), ("articles.", "authors.id"),
          ("articles.author.id", "authors.id"), ("authors.id", ".id"),
          ("authors.country", "countries.code.2")] } =
        ofRelation "articles" (.text "country") countryOfAuthor := by
  have hbefore : ∀ pair ∈ [("author_id", "authors.id"), ("articles.", "authors.id")],
      ¬Complete pair := by decide +kernel
  have hleft : Refers "posts.author.id" "posts" "author.id" :=
    halves_eq_some_iff_refers.mp (by decide +kernel)
  have hlast : countryOfAuthor.pairs.getLast? = some ("authors.country", "countries.code.2") := by
    decide +kernel
  obtain ⟨⟨hlength, -⟩, -, -, htarget, -, hstart⟩ :=
    chain_followed "articles" (.text "country") countryOfAuthor
  refine ⟨hbefore, hleft, hlength.trans (by decide +kernel), htarget _ hlast, ?_⟩
  exact hstart [("author_id", "authors.id"), ("articles.", "authors.id")] _ _ _ _ _ rfl hbefore
    hleft (by decide) (by decide)

end Route

end Winnow
