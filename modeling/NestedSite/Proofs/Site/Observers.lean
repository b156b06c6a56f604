import NestedSite.Proofs.Store.Confined
import NestedSite.Site.Event

/-!
# What observers change

When something happens, the observers learn of it one after the other, whatever each of them answers. They leave
nothing behind but the complaints about those that fail (`Run.emit_run`), which are no events (`Observers.events_told`).
-/

namespace NestedSite

/-! ## Notes -/

namespace World

/-- The world after further notes. -/
def noted (w : World) (notes : List Note) : World := { w with notes := w.notes ++ notes.toArray }

theorem noted_nil (w : World) : w.noted [] = w := by simp [noted]

theorem noted_noted (w : World) (ns ms : List Note) : (w.noted ns).noted ms = w.noted (ns ++ ms) := by simp [noted]

end World

/-- The event that a note reports, if it reports one. -/
def Note.event? : Note → Option Event
  | .event e => some e
  | .log .. => none

def Note.isError : Note → Bool
  | .log .error .. => true
  | _ => false

namespace World

/-- The notes other than errors, in the order of time. -/
def account (w : World) : List Note := w.notes.toList.filter fun n => !n.isError

/-- The events, in the order of time. -/
def events (w : World) : List Event := w.notes.toList.filterMap Note.event?

/-- What is told by other notes than errors. -/
theorem filterMap_account {α : Type} {p : Note → Option α} (hp : ∀ n : Note, n.isError = true → p n = none)
    (w : World) :
    w.notes.toList.filterMap p = w.account.filterMap p := by
  rw [account, List.filterMap_filter]
  refine congrArg (List.filterMap · w.notes.toList) (funext fun n => ?_)
  cases hn : n.isError with
  | false => simp
  | true => simp [hp n hn]

theorem events_eq (w : World) : w.events = w.account.filterMap Note.event? := by
  refine filterMap_account (fun n hn => ?_) w
  cases n with
  | event e => cases hn
  | log level source message => rfl

theorem account_noted (w : World) (notes : List Note) :
    (w.noted notes).account = w.account ++ notes.filter fun n => !n.isError := by
  simp [account, noted]

theorem account_noted_of {w : World} {notes : List Note} (h : ∀ n ∈ notes, n.isError = false) :
    (w.noted notes).account = w.account ++ notes := by
  rw [account_noted, List.filter_eq_self.2 fun n hn => by simp [h n hn]]

end World

theorem Run.note_run (n : Note) (w : World) : (note n).run.run w = (.ok (), w.noted [n]) := by
  simp only [World.noted, ← Array.push_eq_append]
  rfl

/-! ## Delivery -/

namespace Observers

/-- The complaint about an observer that fails on an event. -/
def complaint? (o : Observers) (e : Event) (name : String) : Option Note :=
  match o.answer name e with
  | .ok () => none
  | .error words =>
    some (.log .warning emitterSource s!"Observer <observer {name}> failed on {e.kind.name}: {words}")

/-- The complaints about the observers that fail on an event. -/
def complaints (o : Observers) (e : Event) : List Note := (o.emitter.receivers e.kind).filterMap (o.complaint? e)

/-- What is noted when something happens. -/
def told (o : Observers) (e : Event) : List Note := .event e :: o.complaints e

theorem eq_of_complaint? {o : Observers} {e : Event} {name : String} {n : Note} (h : o.complaint? e name = some n) :
    ∃ message, n = .log .warning emitterSource message := by
  unfold complaint? at h
  split at h
  · cases h
  · exact ⟨_, (Option.some.inj h).symm⟩

theorem events_complaints (o : Observers) (e : Event) : (o.complaints e).filterMap Note.event? = [] := by
  refine List.filterMap_eq_nil_iff.2 fun n hn => ?_
  obtain ⟨name, -, hname⟩ := List.mem_filterMap.1 hn
  obtain ⟨message, rfl⟩ := eq_of_complaint? hname
  rfl

/-- Of what is noted, only the event itself is an event. -/
theorem events_told (o : Observers) (e : Event) : (o.told e).filterMap Note.event? = [e] := by
  rw [told, List.filterMap_cons, events_complaints]
  rfl

theorem isError_told {o : Observers} {e : Event} {n : Note} (h : n ∈ o.told e) : n.isError = false := by
  rcases List.mem_cons.1 h with rfl | h
  · rfl
  · obtain ⟨name, -, hname⟩ := List.mem_filterMap.1 h
    obtain ⟨message, rfl⟩ := eq_of_complaint? hname
    rfl

end Observers

namespace Run

/-- One observer after the other receives an event, whether those before it fail or not. -/
theorem deliver_run (o : Observers) (e : Event) (w : World) :
    (deliver o.answer o.emitter e).run.run w = (.ok (), w.noted (o.complaints e)) := by
  unfold deliver Observers.complaints
  induction o.emitter.receivers e.kind generalizing w with
  | nil => rw [List.filterMap_nil, World.noted_nil]; rfl
  | cons name names ih =>
    rw [List.forM, run_bind, List.filterMap_cons]
    cases ha : o.answer name e with
    | ok _ =>
      simp only [Observers.complaint?, ha]
      exact ih w
    | error words =>
      simp only [Observers.complaint?, ha, note_run]
      rw [ih, World.noted_noted]
      rfl

theorem emit_run (o : Observers) (e : Event) (w : World) : (emit o e).run.run w = (.ok (), w.noted (o.told e)) := by
  unfold emit
  rw [run_bind, note_run]
  dsimp only
  rw [deliver_run, World.noted_noted]
  rfl

end Run

end NestedSite
