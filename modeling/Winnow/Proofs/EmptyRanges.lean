import Winnow.Proofs.TextOutcome

open List (Forall₂)

namespace Winnow

namespace Catalog

variable {cat : Catalog}

/-- The calls for a predicate on a column: those that the relation of the column needs, and tests
of the column, unless the predicate is a range without bounds. -/
def Applies (cat : Catalog) (applied : FoundColumn × Predicate) (calls : List Call) : Prop :=
  ∃ before tests, calls = before ++ tests ∧
    (∀ c ∈ before, ∃ relation, applied.1.relation = some relation ∧ cat.Prepares relation c) ∧
    (∀ c ∈ tests, c.Tests applied.1.column) ∧ (tests = [] ↔ applied.2.Unbounded)

theorem SentFor.applies {found : List (FoundColumn × Predicate)} {calls : List Call}
    (h : cat.SentFor Predicate.sent found calls)
    (hcompiled : ∀ x ∈ found, ∃ expression,
      Predicate.compile x.1.column expression = some x.2) :
    ∃ parts, calls = parts.flatten ∧ Forall₂ cat.Applies found parts := by
  induction h with
  | nil => exact ⟨[], rfl, .nil⟩
  | @cons column p rest before calls hbefore _ ih =>
    obtain ⟨⟨expression, hp⟩, hrest⟩ := List.forall_mem_cons.mp hcompiled
    obtain ⟨parts, rfl, hparts⟩ := ih hrest
    refine ⟨(before ++ p.sent) :: parts, ?_, .cons ⟨before, p.sent, rfl, hbefore, ?_, ?_⟩ hparts⟩
    · rw [List.flatten_cons, List.append_assoc]
    · obtain ⟨hcolumn, -⟩ := Predicate.compile_eq_some_iff.mp hp
      exact fun c hc => hcolumn ▸ Predicate.tests_of_mem_sent hc
    · exact (Predicate.sentAs_of_compile hp).none

theorem compile_of_mem_compiled {use : Use} {α : Type} {compile : String → String → Option α}
    {raw : Option String} {limit : Option Int} {x : FoundColumn × α}
    (h : x ∈ cat.compiled use compile raw limit) :
    ∃ expression, compile x.1.column expression = some x.2 := by
  obtain ⟨c, -, hc⟩ := List.mem_filterMap.mp h
  obtain ⟨found, -, hfound⟩ := Option.bind_eq_some_iff.mp hc
  obtain ⟨a, ha, rfl⟩ := Option.map_eq_some_iff.mp hfound
  exact ⟨c.expression, ha⟩

end Catalog

namespace Desk

variable {Q : Type} [QueryTarget Q] {cat : Catalog} {d : Desk (Logged Q)}

/-- Filtering sends, for each predicate that it returns, the calls that its relation needs and
tests of its column, and besides these nothing. The tests are missing only from ranges without
bounds. -/
theorem filter_applies (hs : cat.separator ≠ "") (hm : cat.book.Reaches d.memory)
    (ho : d.session.isOpen = true) (hw : Willing d.session.query.query) (raw : Option String)
    (limit : Option Int) :
    ∃ e parts, filter cat raw limit d =
        .ok ((cat.compiled .filter Predicate.compile raw limit).map Prod.snd) e ∧
      e.log = d.log ++ parts.flatten.map (⟨·, true⟩) ∧
      Forall₂ cat.Applies (cat.compiled .filter Predicate.compile raw limit) parts := by
  have hd : Stands cat d := ⟨ho, Logged.willing hw, hm⟩
  obtain ⟨e, calls, hok, hlog, hsent, -⟩ :=
    workText_determined hs (fun _ _ _ => issues_sendPredicate) hd raw limit
  obtain ⟨parts, hcalls, hparts⟩ := hsent.applies fun _ h => Catalog.compile_of_mem_compiled h
  refine ⟨e, parts, hok, ?_, hparts⟩
  rw [hlog, hcalls]

def rangesText : Option String := some "profile.photo:between_,@id:not_between_,5"

theorem filter_applies_ranges :
    Catalog.ofUsers.separator ≠ "" ∧ Catalog.ofUsers.book.Reaches (usersAfter []).memory ∧
      (usersAfter []).session.isOpen = true ∧ Willing (usersAfter []).session.query.query ∧
      ∃ e parts, filter .ofUsers rangesText none (usersAfter []) =
          .ok [⟨"user_pictures.path", .between, ["", ""]⟩, ⟨"users.id", .notBetween, ["", "5"]⟩] e ∧
        e.log = (usersAfter []).log ++ parts.flatten.map (⟨·, true⟩) ∧
        Forall₂ Catalog.ofUsers.Applies
          [(⟨"user_pictures.path", .aliased, some "profile"⟩,
              ⟨"user_pictures.path", .between, ["", ""]⟩),
            (⟨"users.id", .direct, none⟩, ⟨"users.id", .notBetween, ["", "5"]⟩)] parts := by
  have hs : Catalog.ofUsers.separator ≠ "" := by decide
  have hw : Willing (usersAfter []).session.query.query := willing_recorder rfl
  have hcompiled : Catalog.ofUsers.compiled .filter Predicate.compile rangesText none =
      [(⟨"user_pictures.path", .aliased, some "profile"⟩,
          ⟨"user_pictures.path", .between, ["", ""]⟩),
        (⟨"users.id", .direct, none⟩, ⟨"users.id", .notBetween, ["", "5"]⟩)] := by decide +kernel
  have happlies := filter_applies hs .empty rfl hw rangesText none
  rw [hcompiled] at happlies
  exact ⟨hs, .empty, rfl, hw, happlies⟩

def boundlessText : Option String := some "profile.photo:between_,"

/-- A range without bounds is applied and the profile is joined for it, but no call tests
anything. -/
theorem joined_for_nothing :
    ∃ e, filter .ofUsers boundlessText none (usersAfter []) =
        .ok [⟨"user_pictures.path", .between, ["", ""]⟩] e ∧
      e.log.map (·.call.name) = ["select", "join"] := by
  have hw : Willing (usersAfter []).session.query.query := willing_recorder rfl
  have hcompiled : (Catalog.ofUsers.compiled .filter Predicate.compile boundlessText none).map
      Prod.snd = [⟨"user_pictures.path", .between, ["", ""]⟩] := by decide +kernel
  have hlog : (after (filter .ofUsers boundlessText none) (usersAfter [])).log.map (·.call.name) =
      ["select", "join"] := by decide +kernel
  have hd : Stands .ofUsers (usersAfter []) := ⟨rfl, Logged.willing hw, .empty⟩
  obtain ⟨e, -, hok, -⟩ := workText_determined (by decide) (fun _ _ _ => issues_sendPredicate) hd
    boundlessText none
  rw [hcompiled] at hok
  have hfilter : filter .ofUsers boundlessText none (usersAfter []) =
      .ok [⟨"user_pictures.path", .between, ["", ""]⟩] e := hok
  simp only [after, hfilter] at hlog
  exact ⟨e, hfilter, hlog⟩

end Desk

end Winnow
