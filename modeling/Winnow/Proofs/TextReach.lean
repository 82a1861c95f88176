import Winnow.Proofs.DeskRuns

namespace Winnow

variable {Q : Type} {cat : Catalog} {use : Use} {conditions : List Condition}

/-- The hops of a relation, as its chain and the base table give them. -/
def Catalog.hops (cat : Catalog) (rel : Relation) : List Hop :=
  Route.rebase cat.book.base (rel.chain.filterMap Hop.ofPair?)

/-- A column that clients may use: one that is listed for the base table, or the one behind a field
that a relation with a hop offers. -/
inductive Catalog.Grants (cat : Catalog) (use : Use) : String → Prop
  | direct {c : String} : c ∈ cat.allowed use → Grants cat use (cat.book.qualify c)
  | related {name field : String} {rel : Relation} {last : Hop} :
      cat.book.relation? (.text name) = some rel → field ∈ rel.offered use →
      (cat.hops rel).getLast? = some last →
      Grants cat use
        (((AliasMap.ofEntries rel.entries).lookup field).getD (last.toTable ++ "." ++ field))

/-- Whether an expression can be compiled for a use. -/
def Use.compiles : Use → String → Bool
  | .filter, expression => (Predicate.ofTokens? (splitAt '_' expression)).isSome
  | .sort, expression => (Direction.read? expression).isSome

/-- The column to which a condition is applied: it may be used, and the expression can be compiled.
-/
def Catalog.applied? (cat : Catalog) (use : Use) (c : Condition) : Option FoundColumn :=
  (cat.columnOf? use c.column).filter fun _ => use.compiles c.expression

/-- A call as a use sends it for a column. -/
def Use.Sends (column : String) (c : Call) : Use → Prop
  | .filter => c.Tests column
  | .sort => ∃ direction : Direction, c = .orderBy column direction.name

/-- A relation of which a condition names a field that it offers, and says something of it. -/
def Catalog.Names (cat : Catalog) (use : Use) (conditions : List Condition) (rel : Relation) :
    Prop :=
  ∃ c ∈ conditions, ∃ name field, halves '.' c.column = some (name, field) ∧
    cat.book.relation? (.text name) = some rel ∧ field ∈ rel.offered use ∧
    cat.hops rel ≠ [] ∧ use.compiles c.expression = true

/-- A call that keeps to what is granted and to what the relations say that conditions name;
`selected` are the columns that are selected already. -/
inductive Catalog.Confines (cat : Catalog) (use : Use) (conditions : List Condition)
    (selected : List String) : Call → Prop
  | column {column : String} {c : Call} : cat.Grants use column → use.Sends column c →
      Confines cat use conditions selected c
  | join {rel : Relation} {hop : Hop} : cat.Names use conditions rel → hop ∈ cat.hops rel →
      Confines cat use conditions selected
        (.join hop.toTable hop.fromColumn "=" hop.toColumn (.ok rel.joinKind))
  | select {rel : Relation} {entries : List String} : cat.Names use conditions rel →
      (∀ e ∈ entries, e ∈ selected ∨ e ∈ cat.visible ∨
        ∃ rel, cat.Names use conditions rel ∧ e ∈ rel.entries.map normalizeEntry) →
      Confines cat use conditions selected (.select entries)
  | guard {rel : Relation} {hop : Hop} {table : String} : cat.Names use conditions rel →
      hop ∈ cat.hops rel → table = hop.toTable ∨ table = hop.fromTable →
      table ∈ rel.softDelete →
      Confines cat use conditions selected (.filterNull (table ++ "." ++ cat.softDeleteColumn))

theorem RelationBook.offeredField?_some {book : RelationBook} {given name field : String}
    (h : book.offeredField? use given = some (name, field)) :
    ∃ rel, halves '.' given = some (name, field) ∧ book.relation? (.text name) = some rel ∧
      field ∈ rel.offered use := by
  unfold offeredField? at h
  split at h
  next => cases h
  next name' field' hh =>
    split at h
    next => cases h
    next rel hr =>
      split at h
      next hm =>
        cases h
        exact ⟨rel, hh, hr, hm⟩
      next => cases h

theorem Catalog.hops_of_relation? {name : String} {rel : Relation}
    (h : cat.book.relation? (.text name) = some rel) :
    (cat.book.route (.named (.text name))).hops = cat.hops rel := by
  simp only [RelationBook.route, h]
  rfl

theorem Catalog.fieldOf?_some {name field : String} {rel : Relation} {found : FoundColumn}
    (hr : cat.book.relation? (.text name) = some rel)
    (h : cat.book.fieldOf? name field = some found) :
    found.relation = some name ∧ ∃ last, (cat.hops rel).getLast? = some last ∧
      found.column =
        ((AliasMap.ofEntries rel.entries).lookup field).getD (last.toTable ++ "." ++ field) := by
  unfold RelationBook.fieldOf? RelationBook.fieldOf Route.target at h
  rw [Catalog.hops_of_relation? hr, Option.map_map, Option.map_eq_some_iff] at h
  obtain ⟨last, hlast, hfound⟩ := h
  have ha : cat.book.aliasMap (.named (.text name)) = AliasMap.ofEntries rel.entries := by
    simp only [RelationBook.aliasMap, RelationBook.relationOf?, hr]
  simp only [Function.comp_apply, ha] at hfound
  split at hfound
  next source hs =>
    subst hfound
    exact ⟨rfl, last, hlast, by simp [hs]⟩
  next hs =>
    subst hfound
    exact ⟨rfl, last, hlast, by simp [hs]⟩

/-- The column behind a reference is granted, and a relation that it needs is named by the
reference. -/
theorem Catalog.columnOf?_some {given : String} {found : FoundColumn}
    (h : cat.columnOf? use given = some found) :
    cat.Grants use found.column ∧ ∀ relation, found.relation = some relation →
      ∃ field rel, halves '.' given = some (relation, field) ∧
        cat.book.relation? (.text relation) = some rel ∧ field ∈ rel.offered use ∧
        cat.hops rel ≠ [] := by
  unfold Catalog.columnOf? RelationBook.columnOf? at h
  split at h
  next hd =>
    cases h
    exact ⟨.direct hd, by simp⟩
  next =>
    obtain ⟨⟨name, field⟩, ho, hf⟩ := Option.bind_eq_some_iff.mp h
    obtain ⟨rel, hh, hr, hm⟩ := RelationBook.offeredField?_some ho
    obtain ⟨hn, last, hlast, hc⟩ := Catalog.fieldOf?_some hr hf
    refine ⟨hc ▸ .related hr hm hlast, ?_⟩
    intro relation he
    cases hn.symm.trans he
    exact ⟨field, rel, hh, hr, hm, by rintro he; simp [he] at hlast⟩

theorem Predicate.compiles_of_compile {column expression : String} {p : Predicate}
    (h : Predicate.compile column expression = some p) :
    Use.filter.compiles expression = true ∧ p.column = column := by
  unfold Predicate.compile at h
  obtain ⟨found, hf, rfl⟩ := Option.map_eq_some_iff.mp h
  exact ⟨by simp [Use.compiles, hf], rfl⟩

theorem Order.compiles_of_compile {column expression : String} {o : Order}
    (h : Order.compile column expression = some o) :
    Use.sort.compiles expression = true ∧ o.column = column := by
  unfold Order.compile at h
  obtain ⟨direction, hd, rfl⟩ := Option.map_eq_some_iff.mp h
  exact ⟨by simp [Use.compiles, hd], rfl⟩

/-- The entries that a call selects. -/
def Call.selected? : Call → Option (List String)
  | select entries => some entries
  | _ => none

namespace Desk

variable {α : Type} {compile : String → String → Option α} {sent : α → List Call}

theorem Applied.names {c : Condition} {found : FoundColumn} {a : α} {relation : String}
    {rel : Relation} (h : Applied cat use compile conditions c found a)
    (hr : found.relation = some relation)
    (hk : cat.book.relationOf? (.named (.text relation)) = some rel)
    (hc : use.compiles c.expression = true) : cat.Names use conditions rel := by
  obtain ⟨field, rel', hh, hrel, hm, hn⟩ := (Catalog.columnOf?_some h.resolved).2 relation hr
  cases hk.symm.trans hrel
  exact ⟨c, h.read, relation, field, hh, hrel, hm, hn, hc⟩

/-- The calls since a log `before` are confined, and so is what is selected by now. -/
structure Keeps (cat : Catalog) (use : Use) (conditions : List Condition) (before : List Sent)
    (selected : List String) (d : Desk (Logged Q)) : Prop where
  sent : ∃ sent, d.log = before ++ sent ∧
    ∀ s ∈ sent, cat.Confines use conditions selected s.call
  selected : ∀ e ∈ d.session.joins.selected, e ∈ selected ∨ e ∈ cat.visible ∨
    ∃ rel, cat.Names use conditions rel ∧ e ∈ rel.entries.map normalizeEntry

variable [QueryTarget Q] {before : List Sent} {selected : List String} {d d' : Desk (Logged Q)}

theorem Keeps.sends {c : Call} {f : Joins → Joins} (h : Keeps cat use conditions before selected d)
    (hs : Sends c f d d') (hf : ∀ j, (f j).selected = j.selected)
    (hc : cat.Confines use conditions selected c) :
    Keeps cat use conditions before selected d' := by
  obtain ⟨taken, hl, hj⟩ := hs.log
  obtain ⟨⟨sent, hsent, hall⟩, hsel⟩ := h
  refine ⟨⟨sent ++ [⟨c, taken⟩], by rw [hl, hsent, List.append_assoc], ?_⟩, ?_⟩
  · intro s hs
    rcases List.mem_append.mp hs with hs | hs
    · exact hall s hs
    · cases List.mem_singleton.mp hs
      exact hc
  · intro e he
    refine hsel e ?_
    cases taken with
    | true => rwa [hj, if_pos rfl, hf] at he
    | false => simpa [hj] using he

theorem Keeps.joinMove {rel : Relation} (hn : cat.Names use conditions rel)
    (hm : JoinMove cat rel (cat.hops rel) d d') (h : Keeps cat use conditions before selected d) :
    Keeps cat use conditions before selected d' := by
  cases hm with
  | @select j hj _ hs =>
    have hsel : ∀ e ∈ j.selected, e ∈ selected ∨ e ∈ cat.visible ∨
        ∃ rel, cat.Names use conditions rel ∧ e ∈ rel.entries.map normalizeEntry := by
      intro e he
      rw [hj] at he
      rcases mem_of_mem_chosen he with he | he | he
      · exact h.selected e he
      · exact Or.inr (Or.inl he)
      · exact Or.inr (Or.inr ⟨rel, hn, he⟩)
    have hkeeps : Keeps cat use conditions before selected (d.withJoins j) := ⟨h.sent, hsel⟩
    exact hkeeps.sends hs (fun _ => rfl) (.select hn hsel)
  | @join hop hf hs => exact h.sends hs (fun _ => rfl) (.join hn (List.mem_of_find?_eq_some hf))
  | guard hs' _ hl ht _ hs =>
    exact h.sends hs (fun _ => rfl) (.guard hn (by simp [hs']) (ht.imp_right And.right) hl)

theorem Keeps.move (hcompile : ∀ column e a, compile column e = some a →
      use.compiles e = true ∧ ∀ call ∈ sent a, use.Sends column call)
    (hm : Move cat (textAsks cat use compile sent conditions) d d')
    (h : Keeps cat use conditions before selected d) :
    Keeps cat use conditions before selected d' := by
  cases hm with
  | aside hs =>
    exact ⟨by simpa only [Desk.log, hs] using h.sent, by simpa only [hs] using h.selected⟩
  | enter => exact ⟨h.sent, h.selected⟩
  | call ha hs =>
    obtain ⟨c, found, a, happlied, hcall, -⟩ := ha
    exact h.sends hs (fun _ => rfl) (.column (Catalog.columnOf?_some happlied.resolved).1
      ((hcompile _ _ _ happlied.compiled).2 _ hcall))
  | @relation _ ref rel ha hk hj =>
    obtain ⟨c, found, a, relation, happlied, hr, rfl⟩ := ha
    rw [Catalog.hops_of_relation? hk] at hj
    exact h.joinMove (happlied.names hr hk (hcompile _ _ _ happlied.compiled).1) hj

theorem confined_of_goes {β : Type} {step : Build (Logged Q) β} {R : β → Desk (Logged Q) → Prop}
    (hcompile : ∀ column e a, compile column e = some a →
      use.compiles e = true ∧ ∀ call ∈ sent a, use.Sends column call)
    (hg : Goes (Move cat (textAsks cat use compile sent conditions)) (Has cat []) step R)
    (hm : cat.book.Reaches d.memory) :
    ∃ sent, (after step d).log = d.log ++ sent ∧
      ∀ s ∈ sent, cat.Confines use conditions d.session.joins.selected s.call := by
  have hstart : Keeps cat use conditions d.log d.session.joins.selected d :=
    ⟨⟨[], by simp, by simp⟩, fun e he => Or.inl he⟩
  exact (kept_of_moves (fun _ _ h hk => Keeps.move hcompile h hk)
    (hg.after_moves ⟨hm, List.nil_subset _⟩) hstart).sent

/-- Whatever the text, filtering and sorting send only calls that are confined to what the catalog
grants, the relations that the text names and what is selected already. -/
theorem text_confined (hm : cat.book.Reaches d.memory) (raw : Option String) (limit : Option Int) :
    (∃ sent, (after (filter cat raw limit) d).log = d.log ++ sent ∧ ∀ s ∈ sent,
      cat.Confines .filter (cat.conditions .filter raw limit) d.session.joins.selected s.call) ∧
    ∃ sent, (after (sort cat raw limit) d).log = d.log ++ sent ∧ ∀ s ∈ sent,
      cat.Confines .sort (cat.conditions .sort raw limit) d.session.joins.selected s.call := by
  constructor
  · refine confined_of_goes ?_ (goes_filter raw limit) hm
    intro column e p h
    obtain ⟨hc, rfl⟩ := Predicate.compiles_of_compile h
    exact ⟨hc, fun call hcall => Predicate.tests_of_mem_sent hcall⟩
  · refine confined_of_goes ?_ (goes_sort raw limit) hm
    intro column e o h
    obtain ⟨hc, rfl⟩ := Order.compiles_of_compile h
    exact ⟨hc, fun call hcall => ⟨o.direction, List.mem_singleton.mp hcall⟩⟩

def photoText : Option String := some "profile.photo:equal_x"

theorem text_confined_photo :
    Catalog.ofUsers.book.Reaches (usersAfter []).memory ∧
      ∃ sent, (after (filter .ofUsers photoText none) (usersAfter [])).log =
          (usersAfter []).log ++ sent ∧ ∀ s ∈ sent,
        Catalog.ofUsers.Confines .filter (Catalog.ofUsers.conditions .filter photoText none)
          (usersAfter []).session.joins.selected s.call := by
  have hm : Catalog.ofUsers.book.Reaches (usersAfter []).memory := .empty
  exact ⟨hm, (text_confined hm photoText none).1⟩

theorem conditions_photo : Catalog.ofUsers.conditions .filter photoText none =
    [⟨"profile.photo", "equal_x"⟩] := by decide +kernel

/-- The text names the profile alone. Where the role was selected before, it is selected again. -/
theorem role_selected_again :
    (((after (filter .ofUsers photoText none) (usersAfter [.join (.named (.text "role"))])).log.drop
        (usersAfter [.join (.named (.text "role"))]).log.length).filterMap (·.call.selected?)) =
      [["users.id", "users.name", "roles.title as role", "user_pictures.path as photo"]] ∧
    "roles.title as role" ∉ Catalog.ofUsers.visible ∧
    ∀ rel, Catalog.ofUsers.Names .filter (Catalog.ofUsers.conditions .filter photoText none) rel →
      "roles.title as role" ∉ rel.entries.map normalizeEntry := by
  refine ⟨by decide +kernel, by decide, ?_⟩
  rintro rel ⟨c, hc, name, field, hh, hr, -⟩
  rw [conditions_photo] at hc
  cases List.mem_singleton.mp hc
  have hp : halves '.' "profile.photo" = some ("profile", "photo") := by decide +kernel
  cases hp.symm.trans hh
  cases hr
  decide +kernel

end Desk

end Winnow
