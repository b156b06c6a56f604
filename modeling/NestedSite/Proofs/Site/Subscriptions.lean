import NestedSite.Proofs.Site.Observers

/-!
# Subscriptions that are live

An emitter is used in operations (`Emitter.Operation`): an observer subscribes or ends all its subscriptions, or an
event is handed out. Of a history of operations those records are live that were added since their observer last ended
its subscriptions (`Emitter.live`), in the order in which they came.

Whatever the history, an event goes to the observers of all kinds first and then to those of its kind, once for each
live record, and each delivery that fails leaves one complaint and nothing else (`Emitter.performAll_delivers`). The
invariant is that the emitter holds the live records, those of all kinds apart from the others (`Emitter.holding`).
-/

namespace NestedSite

namespace Emitter

/-- What is done with an emitter. -/
inductive Operation where
  /-- Without kinds, the observer subscribes for all of them. -/
  | subscribe (observer : String) (kinds : Option (List EventKind))
  | unsubscribe (observer : String)
  /-- An event is handed out; `answer` says what each observer makes of it. -/
  | notify (answer : String → Event → Except String Unit) (e : Event)

/-- Does an operation with an emitter. -/
def perform (m : Emitter) : Operation → Run Emitter
  | .subscribe observer kinds => return m.subscribe observer kinds
  | .unsubscribe observer => return m.unsubscribe observer
  | .notify answer e => do
    Run.deliver answer m e
    return m

/-- Does operations one after the other. -/
def performAll (m : Emitter) (ops : List Operation) : Run Emitter := ops.foldlM perform m

/-! ## Records -/

/-- That an observer is subscribed for a kind, or for all kinds. -/
structure Record where
  observer : String
  kind : Option EventKind
  deriving Repr, DecidableEq

namespace Operation

/-- The records that an operation adds: one for each kind. -/
def records : Operation → List Record
  | subscribe observer none => [⟨observer, none⟩]
  | subscribe observer (some kinds) => kinds.map fun k => ⟨observer, some k⟩
  | unsubscribe _ | notify .. => []

/-- Whether an operation ends the subscriptions of an observer. -/
def ends (observer : String) : Operation → Bool
  | unsubscribe other => observer == other
  | subscribe .. | notify .. => false

end Operation

/-- The records of a history whose observers have not ended their subscriptions since. -/
def live : List Operation → List Record
  | [] => []
  | op :: later => (op.records.filter fun r => !later.any (·.ends r.observer)) ++ live later

/-- Who is to receive an event of a kind after a history. -/
def deliveries (history : List Operation) (kind : EventKind) : List String :=
  (((live history).filter fun r => r.kind == none) ++ (live history).filter fun r => r.kind == some kind).map
    Record.observer

/-- The complaints that an operation leaves after a history: one for each delivery that fails. -/
def complaintsOf (history : List Operation) : Operation → List Note
  | .notify answer e => (deliveries history e.kind).filterMap (Observers.complaint? { answer } e)
  | .subscribe .. | .unsubscribe _ => []

/-- The complaints that operations leave one after the other. -/
def complaints (history : List Operation) : List Operation → List Note
  | [] => []
  | op :: ops => complaintsOf history op ++ complaints (history ++ [op]) ops

/-- What an operation leaves is live until it is ended, and after it all else that it does not end. -/
theorem live_concat (history : List Operation) (op : Operation) :
    live (history ++ [op]) = ((live history).filter fun r => !op.ends r.observer) ++ op.records := by
  induction history with
  | nil => simp [live]
  | cons earlier history ih =>
    rw [List.cons_append, live, live, ih, List.filter_append, List.append_assoc, List.filter_filter]
    refine congrArg (· ++ _) (List.filter_congr fun r _ => ?_)
    rw [List.any_append, List.any_cons, List.any_nil, Bool.or_false, Bool.not_or, Bool.and_comm]

/-- A live record was added at some time. -/
theorem exists_of_mem_live {r : Record} {history : List Operation} (hr : r ∈ live history) :
    ∃ op ∈ history, r ∈ op.records := by
  induction history with
  | nil => cases hr
  | cons op later ih =>
    rcases List.mem_append.1 hr with hr | hr
    · exact ⟨op, List.mem_cons_self, (List.mem_filter.1 hr).1⟩
    · obtain ⟨other, hother, hr⟩ := ih hr
      exact ⟨other, List.mem_cons_of_mem _ hother, hr⟩

/-- An observer that does not come back has no records. -/
theorem not_mem_live {observer : String} {r : Record} {after : List Operation} (before : List Operation)
    (hafter : ∀ op ∈ after, ∀ r ∈ op.records, r.observer ≠ observer)
    (hr : r ∈ live (before ++ .unsubscribe observer :: after)) : r.observer ≠ observer := by
  induction before with
  | nil =>
    obtain ⟨op, hop, hr⟩ := exists_of_mem_live hr
    rcases List.mem_cons.1 hop with rfl | hop
    · cases hr
    · exact hafter op hop r hr
  | cons op before ih =>
    rcases List.mem_append.1 hr with hr | hr
    · rintro rfl
      simp [Operation.ends] at hr
    · exact ih hr

/-! ## The emitter -/

/-- The emitter that holds records: those of all kinds apart from the others. -/
def holding (records : List Record) : Emitter where
  global := (records.filter fun r => r.kind == none).map Record.observer
  byKind := records.filterMap fun r => r.kind.map fun k => (k, r.observer)

/-- The records of all kinds come first, then those of the kind. -/
theorem receivers_holding (records : List Record) (kind : EventKind) :
    (holding records).receivers kind =
      ((records.filter fun r => r.kind == none) ++ records.filter fun r => r.kind == some kind).map
        Record.observer := by
  rw [receivers, holding, List.map_append]
  refine congrArg (_ ++ ·) ?_
  induction records with
  | nil => rfl
  | cons r records ih =>
    cases hk : r.kind with
    | none => simpa [hk] using ih
    | some k => by_cases h : k = kind <;> simpa [hk, h] using ih

theorem subscribe_holding (records : List Record) (observer : String) (kinds : Option (List EventKind)) :
    (holding records).subscribe observer kinds = holding (records ++ (Operation.subscribe observer kinds).records) := by
  cases kinds with
  | none => simp [subscribe, holding, Operation.records]
  | some kinds => simp [subscribe, holding, Operation.records, List.filterMap_map, Function.comp_def]

/-- To leave observers out is to leave their records out. -/
theorem holding_filter (records : List Record) (p : String → Bool) :
    holding (records.filter fun r => p r.observer) =
      { global := (holding records).global.filter p, byKind := (holding records).byKind.filter fun s => p s.2 } := by
  have hglobal : (holding (records.filter fun r => p r.observer)).global = (holding records).global.filter p := by
    simp only [holding, List.filter_map, List.filter_filter]
    exact congrArg _ (List.filter_congr fun r _ => Bool.and_comm _ _)
  have hkinds : (holding (records.filter fun r => p r.observer)).byKind =
      (holding records).byKind.filter fun s => p s.2 := by
    simp only [holding, List.filter_filterMap, List.filterMap_filter]
    refine congrArg (List.filterMap · records) (funext fun r => ?_)
    cases hp : p r.observer <;> cases hk : r.kind <;> simp [Option.filter, hp]
  rw [← hglobal, ← hkinds]

theorem unsubscribe_holding (records : List Record) (observer : String) :
    (holding records).unsubscribe observer =
      holding (records.filter fun r => !(Operation.unsubscribe observer).ends r.observer) :=
  (holding_filter records (· != observer)).symm

/-! ## Runs -/

/-- Handing out an event leaves the complaints, and the emitter as it was. -/
theorem notify_run (m : Emitter) (answer : String → Event → Except String Unit) (e : Event) (w : World) :
    (m.perform (.notify answer e)).run.run w =
      (.ok m, w.noted ((m.receivers e.kind).filterMap (Observers.complaint? { answer } e))) := by
  rw [perform, Run.run_bind, Run.deliver_run ⟨m, answer⟩ e w]
  rfl

/-- One operation: the emitter holds the live records, and the deliveries that fail leave a complaint each. -/
theorem perform_holding (history : List Operation) (op : Operation) (w : World) :
    ((holding (live history)).perform op).run.run w =
      (.ok (holding (live (history ++ [op]))), w.noted (complaintsOf history op)) := by
  rw [live_concat]
  cases op with
  | subscribe observer kinds =>
    have hends :
        ((live history).filter fun r => !(Operation.subscribe observer kinds).ends r.observer) = live history :=
      List.filter_eq_self.2 fun _ _ => rfl
    rw [hends, ← subscribe_holding, complaintsOf, World.noted_nil]
    rfl
  | unsubscribe observer =>
    rw [Operation.records, List.append_nil, ← unsubscribe_holding, complaintsOf, World.noted_nil]
    rfl
  | notify answer e =>
    have hends : ((live history).filter fun r => !(Operation.notify answer e).ends r.observer) = live history :=
      List.filter_eq_self.2 fun _ _ => rfl
    rw [hends, notify_run, receivers_holding, Operation.records, List.append_nil]
    rfl

/-- A run of operations after a history. -/
theorem performAll_holding (history ops : List Operation) (w : World) :
    ((holding (live history)).performAll ops).run.run w =
      (.ok (holding (live (history ++ ops))), w.noted (complaints history ops)) := by
  induction ops generalizing history w with
  | nil => rw [List.append_nil, complaints, World.noted_nil]; rfl
  | cons op ops ih =>
    have hops := ih (history ++ [op]) (w.noted (complaintsOf history op))
    rw [World.noted_noted, List.append_assoc, List.singleton_append] at hops
    rw [performAll, List.foldlM_cons, Run.run_bind, perform_holding]
    exact hops

end Emitter

end NestedSite
