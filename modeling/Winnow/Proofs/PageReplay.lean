import Winnow.Proofs.RenewedRepository

namespace Winnow.Repository

variable {r : Repository} {db : Database}

inductive TextKind where
  | search
  | filter
  | sort
  deriving DecidableEq

/-- The place of a kind in the order in which a listing works its texts. -/
def TextKind.place : TextKind → Nat
  | search => 0
  | filter => 1
  | sort => 2

/-- A text that is given to a repository, with the usual limit. -/
structure TextCall where
  kind : TextKind
  text : String

namespace TextCall

def operation (c : TextCall) : Operation :=
  match c.kind with
  | .search => .search (some c.text)
  | .filter => .filter (some c.text) none
  | .sort => .sort (some c.text) none

/-- What a text does at the desk. -/
def step (r : Repository) (c : TextCall) : Build Select Unit :=
  match c.kind with
  | .search => Desk.search r.catalog (some c.text)
  | .filter => do let _ ← Desk.filter r.catalog (some c.text) none
  | .sort => do let _ ← Desk.sort r.catalog (some c.text) none

def remembered (c : TextCall) (texts : PageTexts) : PageTexts :=
  match c.kind with
  | .search => { texts with search := some c.text }
  | .filter => { texts with filter := some c.text }
  | .sort => { texts with sort := some c.text }

end TextCall

/-- The repository after some texts. -/
def told (r : Repository) (calls : List TextCall) (s : State) : State :=
  r.run (calls.map TextCall.operation) s

/-- The text of a kind that was given last. -/
def lastText (kind : TextKind) : List TextCall → Option String
  | [] => none
  | c :: rest => (lastText kind rest).or (if c.kind = kind then some c.text else none)

def lastTexts (calls : List TextCall) : PageTexts :=
  ⟨lastText .search calls, lastText .filter calls, lastText .sort calls⟩

def textCalls (texts : PageTexts) : List TextCall :=
  (texts.search.map (TextCall.mk .search)).toList ++
    (texts.filter.map (TextCall.mk .filter)).toList ++
      (texts.sort.map (TextCall.mk .sort)).toList

/-- What is done to follow a link with the texts of a page. -/
def follow (texts : PageTexts) : List Operation :=
  [.search texts.search, .filter texts.filter none, .sort texts.sort none]

/-- Each text comes before all that are worked later in a listing, or another one of its kind comes
after it and it leaves the session as it is. -/
def Orderly (r : Repository) : List TextCall → State → Prop
  | [], _ => True
  | c :: rest, s =>
    ((∀ later ∈ rest, c.kind.place < later.kind.place) ∨
      (∃ later ∈ rest, later.kind = c.kind) ∧
        (r.told [c] s).desk.session = s.desk.session) ∧
    Orderly r rest (r.told [c] s)

theorem after_remembered {α : Type} (f : PageTexts → PageTexts) (step : Build Select α)
    (s : State) : after (do remember f; atDesk step) s =
      { s with desk := after step s.desk, strings := f s.strings } := by
  change after (atDesk step) { s with strings := f s.strings } = _
  unfold after atDesk
  cases step s.desk <;> rfl

theorem after_remembered_discard {α : Type} (f : PageTexts → PageTexts) (step : Build Select α)
    (s : State) : after (do remember f; let _ ← atDesk step) s =
      { s with desk := after (do let _ ← step) s.desk, strings := f s.strings } := by
  change after (do return (fun _ => ()) (← atDesk step)) { s with strings := f s.strings } = _
  rw [after_map, after_map step fun _ => ()]
  unfold after atDesk
  cases step s.desk <;> rfl

theorem told_singleton {c : TextCall} (hc : c.text ≠ "") (s : State) :
    r.told [c] s =
      { s with desk := after (c.step r) s.desk, strings := c.remembered s.strings } := by
  obtain ⟨kind, text⟩ := c
  have hfilled : filled? (some text) = some text := by
    simpa [filled?, Option.filter] using hc
  cases kind with
  | search =>
    change after (do r.search (some text); return Answer.done) s = _
    rw [after_map (r.search (some text)) fun _ => Answer.done]
    unfold Repository.search withText
    rw [hfilled]
    exact after_remembered _ _ s
  | filter =>
    change after (do r.filter (some text) none; return Answer.done) s = _
    rw [after_map (r.filter (some text) none) fun _ => Answer.done]
    unfold Repository.filter withText
    rw [hfilled]
    exact after_remembered_discard _ _ s
  | sort =>
    change after (do r.sort (some text) none; return Answer.done) s = _
    rw [after_map (r.sort (some text) none) fun _ => Answer.done]
    unfold Repository.sort withText
    rw [hfilled]
    exact after_remembered_discard _ _ s

theorem told_cons (c : TextCall) (calls : List TextCall) (s : State) :
    r.told (c :: calls) s = r.told calls (r.told [c] s) := rfl

theorem respects_step (c : TextCall) : Respects (Desk.Alike r.catalog) (c.step r) := by
  obtain ⟨kind, text⟩ := c
  cases kind with
  | search =>
    change Respects _ (Desk.search r.catalog (some text))
    exact Desk.respects_rules.search fun _ _ _ => Desk.respects_issue _
  | filter =>
    exact (Desk.respects_rules.filter (Desk.respects_permits _ _) _ _).bind fun _ => .pure ()
  | sort =>
    exact (Desk.respects_rules.sort (Desk.respects_permits _ _) _ _).bind fun _ => .pure ()

theorem lastText_eq_none {kind : TextKind} {calls : List TextCall}
    (h : ∀ c ∈ calls, c.kind ≠ kind) : lastText kind calls = none := by
  induction calls with
  | nil => rfl
  | cons c calls ih =>
    rw [lastText, ih fun c' hc' => h c' (List.mem_cons_of_mem _ hc'),
      if_neg (h c List.mem_cons_self)]
    rfl

theorem mem_of_lastText {kind : TextKind} {calls : List TextCall} {text : String}
    (h : lastText kind calls = some text) : ⟨kind, text⟩ ∈ calls := by
  induction calls with
  | nil => cases h
  | cons c calls ih =>
    rw [lastText, Option.or_eq_some_iff] at h
    rcases h with h | ⟨-, h⟩
    · exact List.mem_cons_of_mem _ (ih h)
    · split at h
      next hk =>
        obtain ⟨kind', text'⟩ := c
        cases Option.some.inj h
        cases hk
        exact List.mem_cons_self
      next => cases h

theorem lastText_isSome {kind : TextKind} {calls : List TextCall}
    (h : ∃ c ∈ calls, c.kind = kind) : (lastText kind calls).isSome = true := by
  induction calls with
  | nil => simp at h
  | cons c calls ih =>
    rw [lastText, Option.isSome_or, Bool.or_eq_true]
    obtain ⟨later, hl, hk⟩ := h
    rcases List.mem_cons.mp hl with rfl | hl
    · exact Or.inr (by rw [if_pos hk]; rfl)
    · exact Or.inl (ih ⟨later, hl, hk⟩)

theorem lastTexts_again {c : TextCall} {calls : List TextCall}
    (h : ∃ later ∈ calls, later.kind = c.kind) : lastTexts (c :: calls) = lastTexts calls := by
  have hsame : ∀ kind, lastText kind (c :: calls) = lastText kind calls := by
    intro kind
    rw [lastText]
    by_cases hk : c.kind = kind
    · obtain ⟨text, ht⟩ := Option.isSome_iff_exists.mp (lastText_isSome (hk ▸ h))
      rw [ht]
      rfl
    · rw [if_neg hk, Option.or_none]
  unfold lastTexts
  rw [hsame, hsame, hsame]

theorem textCalls_first {c : TextCall} {calls : List TextCall}
    (h : ∀ later ∈ calls, c.kind.place < later.kind.place) :
    textCalls (lastTexts (c :: calls)) = c :: textCalls (lastTexts calls) := by
  have hnone : ∀ kind : TextKind, kind.place ≤ c.kind.place → lastText kind calls = none := by
    intro kind hk
    refine lastText_eq_none fun later hl he => ?_
    have hlater := h later hl
    rw [he] at hlater
    omega
  obtain ⟨kind, text⟩ := c
  have hown := hnone kind (Nat.le_refl _)
  cases kind with
  | search => simp [textCalls, lastTexts, lastText, hown]
  | filter =>
    have hsearch := hnone .search (Nat.zero_le _)
    simp [textCalls, lastTexts, lastText, hown, hsearch]
  | sort =>
    have hsearch := hnone .search (Nat.zero_le _)
    have hfilter := hnone .filter (Nat.le_succ 1)
    simp [textCalls, lastTexts, lastText, hown, hsearch, hfilter]

theorem strings_told {calls : List TextCall} (hc : ∀ c ∈ calls, c.text ≠ "") (s : State) :
    (r.told calls s).strings = ⟨(lastText .search calls).or s.strings.search,
      (lastText .filter calls).or s.strings.filter, (lastText .sort calls).or s.strings.sort⟩ := by
  induction calls generalizing s with
  | nil => rfl
  | cons c calls ih =>
    have hfirst := told_singleton (r := r) (hc c List.mem_cons_self) s
    rw [told_cons, ih (fun c' hc' => hc c' (List.mem_cons_of_mem _ hc')), hfirst]
    obtain ⟨kind, text⟩ := c
    cases kind <;> simp [lastText, TextCall.remembered]

theorem mem_of_mem_textCalls {c : TextCall} {calls : List TextCall}
    (h : c ∈ textCalls (lastTexts calls)) : c ∈ calls := by
  simp only [textCalls, lastTexts, List.mem_append, Option.mem_toList,
    Option.map_eq_some_iff] at h
  rcases h with (⟨text, ht, rfl⟩ | ⟨text, ht, rfl⟩) | ⟨text, ht, rfl⟩
  · exact mem_of_lastText ht
  · exact mem_of_lastText ht
  · exact mem_of_lastText ht

theorem lastTexts_textCalls (texts : PageTexts) : lastTexts (textCalls texts) = texts := by
  obtain ⟨search, filter, sort⟩ := texts
  cases search <;> cases filter <;> cases sort <;> rfl

theorem alike_lasts {calls : List TextCall} (hc : ∀ c ∈ calls, c.text ≠ "") {s u : State}
    (h : Desk.Alike r.catalog s.desk u.desk) (ho : r.Orderly calls s) :
    Desk.Alike r.catalog (r.told calls s).desk
      (r.told (textCalls (lastTexts calls)) u).desk := by
  induction calls generalizing s u with
  | nil => exact h
  | cons c calls ih =>
    have htext := hc c List.mem_cons_self
    have hrest := fun c' hc' => hc c' (List.mem_cons_of_mem _ hc')
    obtain ⟨hcase, hlater⟩ := ho
    rw [told_cons]
    rcases hcase with hfirst | ⟨hagain, hsame⟩
    · rw [textCalls_first hfirst, told_cons c (textCalls _)]
      refine ih hrest ?_ hlater
      rw [told_singleton htext, told_singleton htext]
      exact (respects_step c _ _ h).after
    · rw [lastTexts_again hagain]
      refine ih hrest ?_ hlater
      have hself : Desk.Alike r.catalog s.desk s.desk :=
        ⟨h.isOpen, rfl, rfl, rfl, h.memory, h.memory⟩
      have hdone : Desk.Alike r.catalog (r.told [c] s).desk (r.told [c] s).desk := by
        rw [told_singleton htext]
        exact (respects_step c _ _ hself).after
      refine ⟨hsame ▸ h.isOpen, ?_, ?_, ?_, hdone.memory, h.memory'⟩
      · rw [hsame, h.phase]
      · rw [hsame, h.query]
      · rw [hsame, h.joins]

theorem run_follow (texts : PageTexts) (s : State) :
    r.run (follow texts) s = r.told (textCalls texts) s := by
  obtain ⟨search, filter, sort⟩ := texts
  cases search <;> cases filter <;> cases sort <;> rfl

theorem alike_follow {t : State} (ht : r.start db = .ok t) {calls : List TextCall}
    (hc : ∀ c ∈ calls, c.text ≠ "") (ho : r.Orderly calls t) :
    (r.told calls t).strings = lastTexts calls ∧
      (r.told calls t).Alike r db (r.run (follow (lastTexts calls)) t) := by
  have hnew : t.strings = {} := by rw [start_eq ht]
  have hstart := alike_run ht []
  have htexts := fun c hm => hc c (mem_of_mem_textCalls hm)
  have hstrings : (r.told calls t).strings = lastTexts calls := by
    rw [strings_told hc, hnew]
    simp [lastTexts]
  have hfollowed : (r.told (textCalls (lastTexts calls)) t).strings = lastTexts calls := by
    rw [strings_told htexts, hnew]
    simpa [lastTexts] using lastTexts_textCalls (lastTexts calls)
  rw [run_follow]
  exact ⟨hstrings, alike_lasts hc hstart.desk ho, hfollowed.trans hstrings.symm,
    (alike_run ht _).database, (alike_run ht _).database⟩

theorem query_of_page {perPage : Option Int} {number : Int} {s s' : State} {p : Page}
    (h : r.page perPage number s = .ok p s') : p.query = s.strings := by
  obtain ⟨_, _, _, -, -, -, rfl⟩ := of_page h
  rfl

theorem query_of_openPage {perPage : Option Int} {number : Int} {s s' : State} {p : OpenPage}
    (h : r.openPage perPage number s = .ok p s') : p.query = s.strings := by
  obtain ⟨_, _, -, -, rfl⟩ := of_openPage h
  rfl

theorem ok_of_respects {α : Type} {step : Step α} {s s' u : State} {a : α}
    (hstep : Respects (State.Alike r db) step) (h : s.Alike r db u) (hs : step s = .ok a s') :
    ∃ u', step u = .ok a u' := by
  have hsame := hstep s u h
  rw [hs] at hsame
  generalize hu : step u = y at hsame
  cases hsame with
  | ok => exact ⟨_, rfl⟩

/-- After texts in order, of which those that others replaced did nothing, a page carries the last
text of each kind; and on a new repository over the same tables these texts lead to the same page,
with the same rows and the same number of all rows. -/
theorem page_again {t : State} (ht : r.start db = .ok t) {calls : List TextCall}
    (hc : ∀ c ∈ calls, c.text ≠ "") (ho : r.Orderly calls t) (perPage : Option Int)
    (number : Int) :
    (∀ p s', r.page perPage number (r.told calls t) = .ok p s' → p.query = lastTexts calls ∧
      ∃ u', r.page perPage number (r.run (follow p.query) t) = .ok p u') ∧
    ∀ p s', r.openPage perPage number (r.told calls t) = .ok p s' → p.query = lastTexts calls ∧
      ∃ u', r.openPage perPage number (r.run (follow p.query) t) = .ok p u' := by
  obtain ⟨hstrings, halike⟩ := alike_follow ht hc ho
  constructor
  · intro p s' hp
    have hquery : p.query = lastTexts calls := (query_of_page hp).trans hstrings
    rw [hquery]
    exact ⟨rfl, ok_of_respects (respects_rules.page perPage number) halike hp⟩
  · intro p s' hp
    have hquery : p.query = lastTexts calls := (query_of_openPage hp).trans hstrings
    rw [hquery]
    exact ⟨rfl, ok_of_respects (respects_rules.openPage perPage number) halike hp⟩

def usersListed : Repository :=
  define Demo.user Demo.schema {} [] ["id", "name"] ["id"] ["name"] false

def alanSought : List TextCall :=
  [⟨.search, "Al"⟩, ⟨.filter, "id:lower_9"⟩, ⟨.sort, "id:desc"⟩]

/-- The number of all rows that the first page tells after some texts, and the one that it tells
when its link is followed. -/
def totals (r : Repository) (calls : List TextCall) (t : State) : Option (Nat × Nat) :=
  match r.page (some 1) 1 (r.told calls t) with
  | .ok p _ =>
    match r.page (some 1) 1 (r.run (follow p.query) t) with
    | .ok p' _ => some (p.total, p'.total)
    | .error _ _ => none
  | .error _ _ => none

theorem page_again_alan :
    ∃ t p s' u', usersListed.start (.ofTables Demo.tables) = .ok t ∧
      (∀ c ∈ alanSought, c.text ≠ "") ∧ usersListed.Orderly alanSought t ∧
      usersListed.page (some 1) 1 (usersListed.told alanSought t) = .ok p s' ∧
      p.query = lastTexts alanSought ∧
      usersListed.page (some 1) 1 (usersListed.run (follow p.query) t) = .ok p u' := by
  have hok : (usersListed.start (.ofTables Demo.tables)).isOk = true := by decide +kernel
  obtain ⟨t, ht⟩ := exists_of_isOk hok
  have hc : ∀ c ∈ alanSought, c.text ≠ "" := by simp [alanSought]
  have ho : usersListed.Orderly alanSought t :=
    ⟨Or.inl (by simp [TextKind.place]), Or.inl (by simp [TextKind.place]), Or.inl (by simp),
      trivial⟩
  have hs : succeeds (usersListed.page (some 1) 1) (usersListed.told alanSought t) = true := by
    rw [start_eq ht]
    decide +kernel
  obtain ⟨p, hp⟩ := exists_of_succeeds hs
  obtain ⟨hquery, u', hagain⟩ := (page_again ht hc ho (some 1) 1).1 p _ hp
  exact ⟨t, p, _, u', ht, hc, ho, hp, hquery, hagain⟩

def filteredTwice : List TextCall := [⟨.filter, "id:equal_1"⟩, ⟨.filter, "name:equal_Alan"⟩]

theorem page_not_again :
    (∀ c ∈ filteredTwice, c.text ≠ "") ∧ ∃ t, usersListed.start (.ofTables Demo.tables) = .ok t ∧
      totals usersListed filteredTwice t = some (0, 1) := by
  have hok : (usersListed.start (.ofTables Demo.tables)).isOk = true := by decide +kernel
  obtain ⟨t, ht⟩ := exists_of_isOk hok
  refine ⟨by simp [filteredTwice], t, ht, ?_⟩
  rw [start_eq ht]
  decide +kernel

end Winnow.Repository
