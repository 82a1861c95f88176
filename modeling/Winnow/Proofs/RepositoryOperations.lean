import Winnow.Proofs.QueryFailure
import Winnow.Proofs.TextProofRules

namespace Winnow.Repository

inductive Operation where
  | filter (raw : Option String) (limit : Option Int)
  | sort (raw : Option String) (limit : Option Int)
  | search (term : Option String)
  | join (ref : RelationRef)
  | joins (refs : List RelationRef)
  | restrict (column operator : String) (value : Value)
  | reset
  | all
  | first
  | count
  | page (perPage : Option Int) (page : Int)
  | openPage (perPage : Option Int) (page : Int)
  | listing (asked : Listing)

/-- What an operation gives. -/
inductive Answer where
  | done
  | rows (rows : List Row)
  | row (row : Option Row)
  | number (n : Nat)
  | page (p : Page)
  | openPage (p : OpenPage)

def Operation.perform (r : Repository) : Operation → Step Answer
  | filter raw limit => do r.filter raw limit; return .done
  | sort raw limit => do r.sort raw limit; return .done
  | search term => do r.search term; return .done
  | join ref => do r.join ref; return .done
  | joins refs => do r.joins refs; return .done
  | restrict column operator value => do Repository.restrict column operator value; return .done
  | reset => do r.reset; return .done
  | all => return .rows (← r.all)
  | first => return .row (← r.first)
  | count => return .number (← r.count)
  | page perPage number => return .page (← r.page perPage number)
  | openPage perPage number => return .openPage (← r.openPage perPage number)
  | listing asked => return .openPage (← r.listing asked)

/-- The repository after some operations. -/
def run (r : Repository) (ops : List Operation) (s : State) : State :=
  ops.foldl (fun s op => after (op.perform r) s) s

/-- What shows of a repository between two operations. -/
structure View where
  phase : Phase
  query : Select
  joins : Joins
  strings : PageTexts

def State.view (s : State) : View :=
  ⟨s.desk.session.phase, s.desk.session.query, s.desk.session.joins, s.strings⟩

/-- What an operation gives, or how it fails, and what shows then. -/
def seen : EStateM.Result Failure State Answer → Except Failure Answer × View
  | .ok a s => (.ok a, s.view)
  | .error e s => (.error e, s.view)

/-- What is seen of some operations, each after those before it. -/
def history (r : Repository) : List Operation → State → List (Except Failure Answer × View)
  | [], _ => []
  | op :: ops, s => seen (op.perform r s) :: history r ops (after (op.perform r) s)

theorem failing_fetch (r : Repository) (w : Window) (ts : Tables) (q : Select) :
    Failing (r.fetch w ts q) :=
  (q.failing_fetch ts w).map

theorem failing_checkSize (size : Int) : Failing (checkSize size) := by
  unfold checkSize
  split
  · exact .error rfl
  · exact .ok _

/-- A property `D` of steps at the desk and a property `G` of steps of a repository that hold of
what operations are made of. A step depends on its state by the texts alone, and what is run on a
query fails only as queries do. -/
structure OperationRules (r : Repository) (D : ∀ {α : Type}, Build Select α → Prop)
    (G : ∀ {α : Type}, Step α → Prop) : Prop where
  pure {α : Type} (a : α) : G (pure a)
  bind {α β : Type} {step : Step α} {next : α → Step β} :
    G step → (∀ a, G (next a)) → G (step >>= next)
  desk : Desk.Rules r.catalog D
  filterText (raw : Option String) (limit : Option Int) : D (Desk.filter r.catalog raw limit)
  sortText (raw : Option String) (limit : Option Int) : D (Desk.sort r.catalog raw limit)
  searchTerm (term : Option String) : D (Desk.search r.catalog term)
  joinOne (ref : RelationRef) : D (Desk.join r.catalog ref)
  test (column operator : String) (value : Value) : D (Desk.issue (.filter column operator value))
  atDesk {α : Type} {step : Build Select α} : D step → G (atDesk step)
  remember (f : PageTexts → PageTexts) : G (remember f)
  get {α : Type} {next : State → Step α} : (∀ s t, s.strings = t.strings → next s = next t) →
    (∀ s, G (next s)) → G (get >>= next)
  reset : G r.reset
  execute {α : Type} {run : Tables → Select → Except Failure α} :
    (∀ ts q, Failing (run ts q)) → G (r.execute run)

namespace OperationRules

variable {r : Repository} {D : ∀ {α : Type}, Build Select α → Prop}
variable {G : ∀ {α : Type}, Step α → Prop}

theorem withText (rules : r.OperationRules D G) {text : Option String} {f : String → Step Unit}
    (h : ∀ s, G (f s)) : G (withText text f) := by
  unfold Repository.withText
  split
  · exact h _
  · exact rules.pure ()

theorem filter (rules : r.OperationRules D G) (raw : Option String) (limit : Option Int) :
    G (r.filter raw limit) :=
  rules.withText fun _ => rules.bind (rules.remember _) fun _ =>
    rules.bind (rules.atDesk (rules.filterText _ limit)) fun _ => rules.pure ()

theorem sort (rules : r.OperationRules D G) (raw : Option String) (limit : Option Int) :
    G (r.sort raw limit) :=
  rules.withText fun _ => rules.bind (rules.remember _) fun _ =>
    rules.bind (rules.atDesk (rules.sortText _ limit)) fun _ => rules.pure ()

theorem search (rules : r.OperationRules D G) (term : Option String) : G (r.search term) :=
  rules.withText fun _ => rules.bind (rules.remember _) fun _ =>
    rules.atDesk (rules.searchTerm _)

theorem page (rules : r.OperationRules D G) (perPage : Option Int) (page : Int) :
    G (r.page perPage page) := by
  refine rules.get (fun s t h => by simp only [h]) fun s => ?_
  exact rules.execute fun ts q => (q.failing_count ts).bind fun _ =>
    (failing_fetch r _ ts q).bind fun _ => (failing_checkSize _).bind fun _ => .ok _

theorem openPage (rules : r.OperationRules D G) (perPage : Option Int) (page : Int) :
    G (r.openPage perPage page) := by
  refine rules.get (fun s t h => by simp only [h]) fun s => ?_
  exact rules.execute fun ts q => (failing_fetch r _ ts q).bind fun _ =>
    (failing_checkSize _).bind fun _ => .ok _

theorem perform (rules : r.OperationRules D G) (op : Operation) : G (op.perform r) := by
  cases op with
  | filter raw limit => exact rules.bind (rules.filter raw limit) fun _ => rules.pure _
  | sort raw limit => exact rules.bind (rules.sort raw limit) fun _ => rules.pure _
  | search term => exact rules.bind (rules.search term) fun _ => rules.pure _
  | join ref => exact rules.bind (rules.atDesk (rules.joinOne ref)) fun _ => rules.pure _
  | joins refs =>
    have hall := rules.desk.joinAll fun ref (_ : ref ∈ refs) => rules.joinOne ref
    exact rules.bind (rules.atDesk hall) fun _ => rules.pure _
  | restrict column operator value =>
    have htest := rules.desk.bind rules.desk.enter fun _ => rules.test column operator value
    exact rules.bind (rules.atDesk htest) fun _ => rules.pure _
  | reset => exact rules.bind rules.reset fun _ => rules.pure _
  | all => exact rules.bind (rules.execute (failing_fetch r _)) fun _ => rules.pure _
  | first =>
    have hfirst : G r.first :=
      rules.bind (rules.execute (failing_fetch r _)) fun _ => rules.pure _
    exact rules.bind hfirst fun _ => rules.pure _
  | count => exact rules.bind (rules.execute fun ts q => q.failing_count ts) fun _ => rules.pure _
  | page perPage number => exact rules.bind (rules.page perPage number) fun _ => rules.pure _
  | openPage perPage number =>
    exact rules.bind (rules.openPage perPage number) fun _ => rules.pure _
  | listing asked =>
    have hlisting : G (r.listing asked) :=
      rules.bind (rules.search _) fun _ => rules.bind (rules.filter _ _) fun _ =>
        rules.bind (rules.sort _ _) fun _ => rules.openPage _ _
    exact rules.bind hlisting fun _ => rules.pure _

end OperationRules

section Database

variable {r : Repository} {db : Database} {α : Type}

theorem database_atDesk (step : Build Select α) (s : State) :
    (after (atDesk step) s).database = s.database := by
  unfold after atDesk
  cases step s.desk with
  | ok a d => rfl
  | error e d => rfl

theorem database_execute (run : Tables → Select → Except Failure α) (s : State) :
    (after (r.execute run) s).database = s.database := by
  unfold after execute
  cases Desk.execute (run s.database.current) s.desk with
  | ok a d => rfl
  | error e d => rfl

theorem database_rules : r.OperationRules (fun _ => True) (Preserves fun s => s.database = db) where
  pure := .pure
  bind := .bind
  desk :=
    { pure := fun _ => trivial
      bind := fun _ _ => trivial
      note := fun _ => trivial
      enter := trivial
      column := fun _ => trivial }
  filterText _ _ := trivial
  sortText _ _ := trivial
  searchTerm _ := trivial
  joinOne _ := trivial
  test _ _ _ := trivial
  atDesk _ _ h := (database_atDesk _ _).trans h
  remember _ _ h := h
  get _ h := Preserves.get.bind h
  reset := Preserves.bind (fun _ h => (database_atDesk _ _).trans h) fun _ _ h => h
  execute _ _ h := (database_execute _ _).trans h

theorem database_perform (op : Operation) (s : State) :
    (after (op.perform r) s).database = s.database :=
  database_rules.perform op s rfl

end Database

end Winnow.Repository
