import NestedSite.Site.Legend

/-!
# Events and their observers

An emitter knows its observers by name. One that is subscribed without kinds receives every event; the others receive
the kinds that they are subscribed for. Those without kinds come first, then those with the kind of the event, both in
the order of their subscription, and as often as they are subscribed (`Emitter.receivers`). What an observer answers
changes nothing but the log (`Run.deliver`).
-/

namespace NestedSite

/-- The observers of all kinds, and those of each kind. -/
structure Emitter where
  global : List String := []
  byKind : List (EventKind × String) := []
  deriving Inhabited

namespace Emitter

def subscribe (m : Emitter) (observer : String) (kinds : Option (List EventKind)) : Emitter :=
  match kinds with
  | none => { m with global := m.global ++ [observer] }
  | some kinds => { m with byKind := m.byKind ++ kinds.map fun k => (k, observer) }

/-- Ends all subscriptions of an observer. -/
def unsubscribe (m : Emitter) (observer : String) : Emitter :=
  { global := m.global.filter (· != observer), byKind := m.byKind.filter fun s => s.2 != observer }

/-- Who receives an event of a kind. -/
def receivers (m : Emitter) (kind : EventKind) : List String :=
  m.global ++ (m.byKind.filter fun s => s.1 == kind).map Prod.snd

end Emitter

/-- Who observes a site: the subscriptions, and what each observer answers to an event. -/
structure Observers where
  emitter : Emitter := {}
  answer : String → Event → Except String Unit := fun _ _ => .ok ()
  deriving Inhabited

/-- The logger of emitters. -/
def emitterSource : String := "sitestack.domain.events.emitter"

namespace Run

/-- Hands an event to its receivers. `observe` says what a receiver answers; the words of one that fails are logged,
and the next one receives the event all the same. -/
def deliver (observe : String → Event → Except String Unit) (m : Emitter) (e : Event) : Run Unit :=
  (m.receivers e.kind).forM fun name =>
    match observe name e with
    | .ok () => pure ()
    | .error words =>
      note (.log .warning emitterSource s!"Observer <observer {name}> failed on {e.kind.name}: {words}")

/-- Something happens, and the observers learn of it. -/
def emit (o : Observers) (e : Event) : Run Unit := do
  note (.event e)
  deliver o.answer o.emitter e

/-- The issues of keys that are no texts. -/
def keysNotText (s : Store) (place : List String) (entries : Entries) : List Issue :=
  entries.filterMap fun (k, _) => match k with
    | .text _ => none
    | k => some ⟨place ++ [s.keyName k, "[key]"], .notText⟩

/-- The entries whose keys are texts. -/
def textFields (entries : Entries) : List (String × Value) :=
  entries.filterMap fun (k, v) => match k with
    | .text t => some (t, v)
    | _ => none

/-- The entries of a mapping whose keys must be texts. -/
def recordOf (place : List String) (v : Value) : Run (Checked (List (String × Value))) := do
  match v with
  | .dict p =>
    let s ← store
    let entries ← dict p
    let issues := keysNotText s place entries
    if issues.isEmpty then return .ok (textFields entries) else return .error issues
  | _ => return .defect place .notMapping

/-- An event as its fields describe it; fields that events do not have are passed over. -/
def eventOf (fields : List (String × Value)) : Run Event := do
  let kind : Checked EventKind :=
    match fieldOf? fields "event_type" with
    | none => .defect ["event_type"] .missing
    | some (.text t) =>
      match EventKind.ofName? t with
      | some k => .ok k
      | none => .defect ["event_type"] .notAChoice
    | some _ => .defect ["event_type"] .notAChoice
  let template := Checked.textOrNone ["template_path"] (fieldOf? fields "template_path")
  let output := Checked.textOrNone ["output_path"] (fieldOf? fields "output_path")
  let metadata ← match fieldOf? fields "metadata" with
    | none => pure (.ok [])
    | some v => recordOf ["metadata"] v
  match kind, template, output, metadata with
  | .ok kind, .ok template, .ok output, .ok metadata => return { kind, template, output, metadata }
  | kind, template, output, metadata =>
    throw (.invalid (kind.issues ++ template.issues ++ output.issues ++ metadata.issues))

/-- The line that shows an event. -/
def eventLine (e : Event) : Run String := do
  let part := fun (label : String) (t : Option String) => match t with
    | some t => if t.isEmpty then [] else [label ++ "=" ++ t]
    | none => []
  let error ← match fieldOf? e.metadata "error" with
    | some v => if ← truth v then pure ["error=" ++ (← text v)] else pure []
    | none => pure []
  return " ".intercalate
    (s!"[EVENT] {e.kind.name}" :: part "template" e.template ++ part "path" e.output ++ error)

end Run

end NestedSite
