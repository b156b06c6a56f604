import Mathlib.Data.List.Induction
import Mathlib.Data.List.Nodup
import NestedSite.Proofs.Relocation.Growth
import NestedSite.Proofs.Site.Keyed
import NestedSite.Proofs.Site.Registered
import NestedSite.Proofs.Store.Ensures

/-!
# Registries

What registering a source comes to does not depend on what is registered already, but for metadata of a directory that
has some (`Engine.register_registers`). So of calls that are made one after the other, whatever comes of each, those
succeed that are accepted (`Engine.accepted`), and the registries hold what these put there (`Engine.Filled`): the last
template of a key at the place of the first one, and the one metadata of a directory. A call that fails leaves them as
they are, and what else it leaves in the world lies behind what the registries lead to.
-/

namespace NestedSite

/-- What a source is registered as. -/
inductive Registration where
  | template (key : String) (t : Template)
  | metadata (directory text : String)

namespace Registration

def template? : Registration → Option (String × Template)
  | template key t => some (key, t)
  | metadata .. => none

def metadata? : Registration → Option (String × String)
  | template .. => none
  | metadata directory text => some (directory, text)

end Registration

namespace Engine

variable {e e' : Engine} {calls done : List (Value × Value)} {call : Value × Value} {s t : Store} {w : World}

/-! ## Metadata that is read -/

/-- What is at a place is the metadata that is read from a text in the empty world, moved with all that it leads to. -/
def IsRead (directory text : String) (s : Store) (p : Nat) : Prop :=
  ∃ p₀ ρ, (readMetadata directory text).outcome {} = .ok p₀ ∧
    p₀ < ((readMetadata directory text).after {}).store.metadata.size ∧
    Relocation.Carries ρ ((readMetadata directory text).after {}).store s ∧ ρ.metadata p₀ = p

theorem IsRead.keeps {directory text : String} {p : Nat} (h : IsRead directory text s p) (k : s.Keeps t) :
    IsRead directory text t p := by
  obtain ⟨p₀, ρ, hread, hlt, hcarries, hp⟩ := h
  exact ⟨p₀, ρ, hread, hlt, hcarries.keeps k, hp⟩

/-- Metadata that comes of the fields of a mapping is new. -/
theorem metadataOf?_ensures (p : Nat) (w : World) : (Run.metadataOf? (.dict p)).Ensures w fun found w' =>
    ∀ q, found = .ok (.metadata q) → q < w'.store.metadata.size := by
  unfold Run.metadataOf?
  refine (Run.Ensures.anything _ _).bind fun _ w _ => (Run.Ensures.anything _ _).bind fun _ w _ => ?_
  refine (Run.Ensures.anything _ _).bind fun _ w _ => (Run.Ensures.anything _ _).bind fun _ w _ => ?_
  split
  · refine (Run.Ensures.anything _ _).bind fun place w _ => ?_
    cases place
    case list =>
      refine .step_bind rfl (.pure fun q hq => ?_)
      cases hq
      exact Nat.lt_of_lt_of_eq (Nat.lt_succ_self _) (Array.size_push _).symm
    all_goals
      refine .pure fun q hq => ?_
      cases hq
  · refine .pure fun q hq => ?_
    cases hq

theorem readMetadata_ensures (directory text : String) (w : World) :
    (readMetadata directory text).Ensures w fun p w' => p < w'.store.metadata.size := by
  unfold readMetadata
  refine (Run.Ensures.anything _ _).bind fun loaded w _ => ?_
  extract_lets next
  have hnext (p : Nat) (w : World) : (next (.dict p)).Ensures w fun p w' => p < w'.store.metadata.size := by
    refine (metadataOf?_ensures p w).bind fun found w hfound => ?_
    cases found with
    | error issues => exact .throw
    | ok v =>
      cases v
      case metadata q => exact .pure (hfound q rfl)
      all_goals exact .throw
  cases loaded
  case none => exact .step_bind rfl (hnext _ _)
  case dict p => exact hnext p w
  all_goals exact Run.Ensures.bind (Q := fun _ _ => False) .throw fun _ _ h => h.elim

/-- Metadata is read behind a world as it is in the empty one. -/
theorem readMetadata_cases (directory text : String) {r : Except Fault Nat} {w' : World}
    (hrun : (readMetadata directory text).run.run w = (r, w')) : w.store.Keeps w'.store ∧
      ((∃ f, (readMetadata directory text).outcome {} = .error f ∧ r = .error f) ∨
        ∃ p₀ p, (readMetadata directory text).outcome {} = .ok p₀ ∧ r = .ok p ∧ IsRead directory text w'.store p) := by
  obtain ⟨houtcome, hcarries, hkeeps⟩ := (readMetadata_moves (ρ := .behind w.store) directory text).beginning
  obtain rfl : (readMetadata directory text).outcome w = r := congrArg Prod.fst hrun
  obtain rfl : (readMetadata directory text).after w = w' := congrArg Prod.snd hrun
  refine ⟨hkeeps, ?_⟩
  rw [houtcome]
  cases hp₀ : (readMetadata directory text).outcome {} with
  | error f => exact .inl ⟨f, rfl, rfl⟩
  | ok p₀ =>
    have hlt := readMetadata_ensures directory text {} p₀ _ (Prod.ext hp₀ rfl)
    exact .inr ⟨p₀, _, rfl, rfl, p₀, .behind w.store, hp₀, hlt, hcarries, rfl⟩

/-! ## One call -/

/-- What a source registers; nothing if its template does not compile or its metadata cannot be read. -/
def registrationAt? (path text : String) : Option Registration :=
  if metadataExtensions.contains (Path.extension path) then
    ((readMetadata (Path.parent path) text).outcome {}).toOption.map fun _ => .metadata (Path.parent path) text
  else (Template.compile text).toOption.map (.template (Path.withoutExtension path))

/-- What a call registers; nothing, either, if its arguments are not texts or its path is empty. -/
def registration? (e : Engine) (call : Value × Value) : Option Registration :=
  match call with
  | (.text text, .text path) =>
    if path.isEmpty then none else registrationAt? (Path.relativeTo e.workDir e.root path) text
  | _ => none

/-- Puts the metadata of a directory behind that of the others. -/
def addDirectory (e : Engine) (directory : String) (p : Nat) : Engine :=
  { e with directories := e.directories ++ [(directory, p)] }

/-- What a call comes to, and with which store. -/
inductive Registers (e : Engine) (call : Value × Value) : Except Fault Engine → Store → Prop
  | refused {f : Fault} {s : Store} (h : e.registration? call = none) : Registers e call (.error f) s
  | template {key : String} {t : Template} {s : Store} (h : e.registration? call = some (.template key t)) :
    Registers e call (.ok (e.putTemplate key t)) s
  | duplicate {directory text : String} {s : Store} (h : e.registration? call = some (.metadata directory text))
    (hold : directory ∈ Keyed.keys e.directories) : Registers e call (.error (.duplicateMetadata directory)) s
  | metadata {directory text : String} {p : Nat} {s : Store}
    (h : e.registration? call = some (.metadata directory text)) (hnew : directory ∉ Keyed.keys e.directories)
    (hread : IsRead directory text s p) : Registers e call (.ok (e.addDirectory directory p)) s

theorem find?_isSome {ds : Directories} {directory : String} :
    (ds.find? directory).isSome ↔ directory ∈ Keyed.keys ds := by
  have hnone : List.find? (fun d => d.1 == directory) ds = none ↔ directory ∉ Keyed.keys ds := Keyed.find?_eq_none
  rw [Directories.find?, Option.isSome_map, ← Option.ne_none_iff_isSome, ne_eq, hnone, not_not]

theorem find?_append_of_some {ds more : Directories} {directory : String} {p : Nat} (h : ds.find? directory = some p) :
    Directories.find? (ds ++ more) directory = some p := by
  obtain ⟨d, hd, rfl⟩ := Option.map_eq_some_iff.1 h
  rw [Directories.find?, List.find?_append, hd]
  rfl

theorem find?_append_new {ds : Directories} {directory : String} {p : Nat} (h : directory ∉ Keyed.keys ds) :
    Directories.find? (ds ++ [(directory, p)]) directory = some p := by
  have hnone : List.find? (fun d => d.1 == directory) ds = none := Keyed.find?_eq_none.2 h
  rw [Directories.find?, List.find?_append, hnone, Option.none_or]
  simp only [List.find?_singleton, beq_self_eq_true, if_true, Option.map_some]

theorem registerMetadata_registers {directory text : String} {r : Except Fault Engine} {w' : World}
    (h : e.registration? call =
      ((readMetadata directory text).outcome {}).toOption.map fun _ => .metadata directory text)
    (hrun : (e.registerMetadata directory text).run.run w = (r, w')) :
    e.Registers call r w'.store ∧ w.store.Keeps w'.store := by
  unfold registerMetadata at hrun
  rw [Run.run_bind] at hrun
  rcases hread : (readMetadata directory text).run.run w with ⟨read, u⟩
  rw [hread] at hrun
  obtain ⟨hkeeps, ⟨f, hf, rfl⟩ | ⟨p₀, p, hp₀, rfl, hp⟩⟩ := readMetadata_cases directory text hread
  · cases hrun
    exact ⟨.refused (by rw [h, hf]; rfl), hkeeps⟩
  · have hsource : e.registration? call = some (.metadata directory text) := by rw [h, hp₀]; rfl
    -- the text is read before the directory is looked up, so a second metadata is left behind in the store
    by_cases hold : (e.directories.find? directory).isSome
    · dsimp only at hrun
      rw [if_pos hold] at hrun
      cases hrun
      exact ⟨.duplicate hsource (find?_isSome.1 hold), hkeeps⟩
    · dsimp only at hrun
      rw [if_neg hold] at hrun
      cases hrun
      exact ⟨.metadata hsource (mt find?_isSome.2 hold) hp, hkeeps⟩

theorem registerTemplate_registers {path text : String} {r : Except Fault Engine} {w' : World}
    (h : e.registration? call = (Template.compile text).toOption.map (.template path))
    (hrun : (e.registerTemplate path text).run.run w = (r, w')) :
    e.Registers call r w'.store ∧ w.store.Keeps w'.store := by
  unfold registerTemplate at hrun
  cases ht : Template.compile text with
  | error f =>
    rw [ht] at hrun
    cases hrun
    exact ⟨.refused (by rw [h, ht]; rfl), .refl _⟩
  | ok t =>
    rw [ht] at hrun
    cases hrun
    exact ⟨.template (by rw [h, ht]; rfl), .refl _⟩

/-- What a call comes to is settled by what it registers and by the directories that have metadata. -/
theorem register_registers {text path : Value} {r : Except Fault Engine} {w' : World}
    (hrun : (e.register text path).run.run w = (r, w')) :
    e.Registers (text, path) r w'.store ∧ w.store.Keeps w'.store := by
  cases text
  case text text =>
    cases path
    case text path =>
      by_cases hpath : path = ""
      · subst hpath
        cases hrun
        exact ⟨.refused rfl, .refl _⟩
      · have hsource : e.registration? (.text text, .text path) =
            registrationAt? (Path.relativeTo e.workDir e.root path) text := if_neg (by simpa using hpath)
        rw [register_text text hpath] at hrun
        generalize Path.relativeTo e.workDir e.root path = path at hrun hsource
        by_cases hmetadata : metadataExtensions.contains (Path.extension path)
        · rw [if_pos hmetadata] at hrun
          exact registerMetadata_registers (hsource.trans (if_pos hmetadata)) hrun
        · rw [if_neg hmetadata] at hrun
          exact registerTemplate_registers (hsource.trans (if_neg hmetadata)) hrun
    all_goals
      cases hrun
      exact ⟨.refused rfl, .refl _⟩
  all_goals
    cases hrun
    exact ⟨.refused rfl, .refl _⟩

/-! ## Calls one after the other -/

/-- Makes a call, whatever comes of it. If it succeeds, it is one of those that did. -/
def attempt (state : Engine × List (Value × Value)) (call : Value × Value) : Run (Engine × List (Value × Value)) :=
  tryCatch (do return (← state.1.register call.1 call.2, state.2 ++ [call])) fun _ => return state

/-- Makes calls one after the other, and says which of them succeed. -/
def registerEach (e : Engine) (calls : List (Value × Value)) : Run (Engine × List (Value × Value)) :=
  calls.foldlM attempt (e, [])

/-- The templates that calls register, by their keys. -/
def templatesOf (e : Engine) (calls : List (Value × Value)) : List (String × Template) :=
  calls.filterMap fun call => (e.registration? call).bind Registration.template?

/-- The texts of the metadata that calls register, by their directories. -/
def metadataOf (e : Engine) (calls : List (Value × Value)) : List (String × String) :=
  calls.filterMap fun call => (e.registration? call).bind Registration.metadata?

theorem templatesOf_concat (e : Engine) (done : List (Value × Value)) (call : Value × Value) :
    e.templatesOf (done ++ [call]) =
      e.templatesOf done ++ ((e.registration? call).bind Registration.template?).toList := by
  rw [templatesOf, List.filterMap_append]
  rfl

theorem metadataOf_concat (e : Engine) (done : List (Value × Value)) (call : Value × Value) :
    e.metadataOf (done ++ [call]) =
      e.metadataOf done ++ ((e.registration? call).bind Registration.metadata?).toList := by
  rw [metadataOf, List.filterMap_append]
  rfl

/-- Whether a call is accepted after others: it registers something, which is not a second metadata of a directory. -/
def accepts (e : Engine) (done : List (Value × Value)) (call : Value × Value) : Bool :=
  match e.registration? call with
  | none => false
  | some (.template ..) => true
  | some (.metadata directory _) => !(Keyed.keys (e.metadataOf done)).contains directory

/-- The calls that are accepted after those before them. -/
def accepted (e : Engine) (calls : List (Value × Value)) : List (Value × Value) :=
  calls.foldl (fun done call => if e.accepts done call then done ++ [call] else done) []

/-- A directory has the metadata that is read from the first one of some texts for it, or none if there is no text. -/
structure HoldsFirst (e : Engine) (sources : List (String × String)) (s : Store) : Prop where
  missing : ∀ directory ∉ Keyed.keys sources, e.directories.find? directory = none
  first : ∀ directory source, sources.find? (Keyed.goesTo directory) = some source →
    ∃ p, e.directories.find? directory = some p ∧ IsRead directory source.2 s p

/-- An engine holds what calls register, all of which succeed. -/
structure Filled (e : Engine) (done : List (Value × Value)) (e' : Engine) (s : Store) : Prop where
  rest : e' = { e with templates := e'.templates, directories := e'.directories }
  templates : e'.templates = Keyed.putAll [] (e.templatesOf done)
  directories : Keyed.keys e'.directories = Keyed.keys (e.metadataOf done)
  nodup : (Keyed.keys (e.metadataOf done)).Nodup
  metadata : ∀ source ∈ e.metadataOf done,
    ∃ p, e'.directories.find? source.1 = some p ∧ IsRead source.1 source.2 s p

namespace Filled

theorem keeps (h : e.Filled done e' s) (k : s.Keeps t) : e.Filled done e' t where
  rest := h.rest
  templates := h.templates
  directories := h.directories
  nodup := h.nodup
  metadata source hsource :=
    have ⟨p, hfind, hread⟩ := h.metadata source hsource
    ⟨p, hfind, hread.keeps k⟩

theorem registration? (h : e.Filled done e' s) (call : Value × Value) :
    e'.registration? call = e.registration? call := by
  rw [h.rest]
  rfl

theorem paths (h : e.Filled done e' s) : e'.paths = (Keyed.keys (e.templatesOf done)).eraseDups :=
  (congrArg Keyed.keys h.templates).trans (Keyed.keys_putAll _)

theorem template? (h : e.Filled done e' s) (key : String) :
    e'.template? key = ((e.templatesOf done).reverse.find? (Keyed.goesTo key)).map Prod.snd := by
  have hfind := Keyed.find?_putAll [] (e.templatesOf done) key
  rw [← h.templates, List.find?_nil, Option.or_none] at hfind
  exact congrArg (Option.map Prod.snd) hfind

theorem holdsFirst (h : e.Filled done e' s) : e'.HoldsFirst (e.metadataOf done) s where
  missing directory hmissing := by
    rw [← h.directories] at hmissing
    exact Option.not_isSome_iff_eq_none.1 (mt find?_isSome.1 hmissing)
  first directory source hfind := by
    obtain rfl := Keyed.key_of_find? hfind
    exact h.metadata source (List.mem_of_find?_eq_some hfind)

theorem new (ht : e.templates = []) (hd : e.directories = []) : e.Filled [] e s where
  rest := rfl
  templates := ht
  directories := congrArg Keyed.keys hd
  nodup := List.nodup_nil
  metadata _ hsource := absurd hsource List.not_mem_nil

/-- A template takes the place of the one with its key. -/
theorem putTemplate (h : e.Filled done e' s) {key : String} {t : Template}
    (hsource : e.registration? call = some (.template key t)) :
    e.Filled (done ++ [call]) (e'.putTemplate key t) s := by
  have htemplates : e.templatesOf (done ++ [call]) = e.templatesOf done ++ [(key, t)] := by
    rw [templatesOf_concat, hsource]
    rfl
  have hmetadata : e.metadataOf (done ++ [call]) = e.metadataOf done := by
    rw [metadataOf_concat, hsource]
    exact List.append_nil _
  have hput : e'.putTemplate key t = { e' with templates := Keyed.put e'.templates key t } := by
    unfold Engine.putTemplate Keyed.put
    split <;> rfl
  rw [hput]
  constructor
  · rw [h.rest]
  · rw [htemplates, Keyed.putAll_append, ← h.templates]
    rfl
  all_goals rw [hmetadata]
  · exact h.directories
  · exact h.nodup
  · exact h.metadata

/-- The metadata of a directory that has none is put behind that of the others. -/
theorem addDirectory (h : e.Filled done e' s) {directory text : String} {p : Nat}
    (hsource : e.registration? call = some (.metadata directory text))
    (hnew : directory ∉ Keyed.keys e'.directories) (hread : IsRead directory text s p) :
    e.Filled (done ++ [call]) (e'.addDirectory directory p) s := by
  have htemplates : e.templatesOf (done ++ [call]) = e.templatesOf done := by
    rw [templatesOf_concat, hsource]
    exact List.append_nil _
  have hmetadata : e.metadataOf (done ++ [call]) = e.metadataOf done ++ [(directory, text)] := by
    rw [metadataOf_concat, hsource]
    rfl
  have hkeys : Keyed.keys (e.metadataOf (done ++ [call])) = Keyed.keys (e.metadataOf done) ++ [directory] := by
    rw [hmetadata, Keyed.keys, List.map_append]
    rfl
  constructor
  · rw [h.rest]
    rfl
  · exact h.templates.trans (congrArg (Keyed.putAll []) htemplates.symm)
  · rw [hkeys, ← h.directories]
    exact List.map_append
  · rw [hkeys, ← List.concat_eq_append]
    exact h.nodup.concat (h.directories ▸ hnew)
  · intro source hmem
    rw [hmetadata] at hmem
    rcases List.mem_append.1 hmem with hmem | hmem
    · obtain ⟨q, hfind, hq⟩ := h.metadata source hmem
      exact ⟨q, find?_append_of_some hfind, hq⟩
    · obtain rfl := List.mem_singleton.1 hmem
      exact ⟨p, find?_append_new hnew, hread⟩

/-- A call succeeds if it is accepted after those that succeeded, and then it counts as one of them. -/
theorem registers (h : e.Filled done e' s) {r : Except Fault Engine} (hr : e'.Registers call r t) (hk : s.Keeps t) :
    (e.accepts done call = true ∧ ∃ e'', r = .ok e'' ∧ e.Filled (done ++ [call]) e'' t) ∨
      (e.accepts done call = false ∧ ∃ f, r = .error f) := by
  unfold accepts
  cases hr with
  | refused hsource =>
    rw [h.registration?] at hsource
    exact .inr ⟨by rw [hsource], _, rfl⟩
  | template hsource =>
    rw [h.registration?] at hsource
    exact .inl ⟨by rw [hsource], _, rfl, (h.putTemplate hsource).keeps hk⟩
  | duplicate hsource hold =>
    rw [h.registration?] at hsource
    rw [h.directories] at hold
    exact .inr ⟨by simpa [hsource] using hold, _, rfl⟩
  | metadata hsource hnew hread =>
    rw [h.registration?] at hsource
    have hfilled := (h.keeps hk).addDirectory hsource hnew hread
    rw [h.directories] at hnew
    exact .inl ⟨by simpa [hsource] using hnew, _, rfl, hfilled⟩

end Filled

/-! ## What the calls come to -/

theorem accepted_concat (e : Engine) (calls : List (Value × Value)) (call : Value × Value) :
    e.accepted (calls ++ [call]) =
      if e.accepts (e.accepted calls) call then e.accepted calls ++ [call] else e.accepted calls := by
  rw [accepted, List.foldl_append]
  rfl

/-- Calls that are accepted are accepted without the others. -/
theorem accepted_accepted (e : Engine) (calls : List (Value × Value)) :
    e.accepted (e.accepted calls) = e.accepted calls := by
  induction calls using List.reverseRecOn with
  | nil => rfl
  | append_singleton calls call ih =>
    rw [accepted_concat]
    split
    · rename_i haccepts
      rw [accepted_concat, ih, if_pos haccepts]
    · exact ih

theorem registerEach_concat (e : Engine) (calls : List (Value × Value)) (call : Value × Value) :
    e.registerEach (calls ++ [call]) = (do attempt (← e.registerEach calls) call) := by
  rw [registerEach, List.foldlM_append]
  simp only [List.foldlM_cons, List.foldlM_nil, bind_pure]
  rfl

/-- A call that fails leaves the engine as it is, and all places of the world. -/
theorem Filled.attempt_run (h : e.Filled done e' w.store) (call : Value × Value) : ∃ w', w.store.Keeps w'.store ∧
    ((e.accepts done call = true ∧ ∃ e'', (e'.register call.1 call.2).outcome w = .ok e'' ∧
        (attempt (e', done) call).run.run w = (.ok (e'', done ++ [call]), w') ∧
        e.Filled (done ++ [call]) e'' w'.store) ∨
      (e.accepts done call = false ∧ (∃ f, (e'.register call.1 call.2).outcome w = .error f) ∧
        (attempt (e', done) call).run.run w = (.ok (e', done), w'))) := by
  rcases hrun : (e'.register call.1 call.2).run.run w with ⟨r, w'⟩
  obtain ⟨hregisters, hkeeps⟩ := register_registers hrun
  have houtcome : (e'.register call.1 call.2).outcome w = r := congrArg Prod.fst hrun
  refine ⟨w', hkeeps, ?_⟩
  unfold attempt
  rw [Run.run_tryCatch, Run.run_bind, hrun, houtcome]
  obtain ⟨haccepts, e'', rfl, hfilled⟩ | ⟨haccepts, f, rfl⟩ := h.registers hregisters hkeeps
  · exact .inl ⟨haccepts, e'', rfl, rfl, hfilled⟩
  · exact .inr ⟨haccepts, ⟨f, rfl⟩, rfl⟩

theorem registerEach_run (ht : e.templates = []) (hd : e.directories = []) (calls : List (Value × Value)) (w : World) :
    ∃ e' w', (e.registerEach calls).run.run w = (.ok (e', e.accepted calls), w') ∧
      e.Filled (e.accepted calls) e' w'.store := by
  induction calls using List.reverseRecOn with
  | nil => exact ⟨e, w, rfl, .new ht hd⟩
  | append_singleton calls call ih =>
    obtain ⟨e', w', hrun, hfilled⟩ := ih
    rw [registerEach_concat, Run.run_bind, hrun, accepted_concat]
    obtain ⟨w'', hkeeps, ⟨haccepts, e'', -, hattempt, hfilled'⟩ | ⟨haccepts, -, hattempt⟩⟩ := hfilled.attempt_run call
    · rw [if_pos haccepts]
      exact ⟨e'', w'', hattempt, hfilled'⟩
    · rw [if_neg (by rw [haccepts]; exact Bool.false_ne_true)]
      exact ⟨e', w'', hattempt, hfilled.keeps hkeeps⟩

/-- Of calls with a new engine, whatever comes of each, the registries hold what the successful ones registered. The
keys of the templates are in the order of their first registration, and each has the template that was registered last;
each directory has the metadata that was registered first. A call fails just if it is not accepted after the successful
ones before it; then the registries, and all that they lead to, are as they were. So the successful calls fill the
registries by themselves as they do among all the others. -/
theorem registerEach_registries (ht : e.templates = []) (hd : e.directories = []) (calls : List (Value × Value))
    (w : World) : ∃ e' w', (e.registerEach calls).run.run w = (.ok (e', e.accepted calls), w') ∧
      e'.paths = (Keyed.keys (e.templatesOf (e.accepted calls))).eraseDups ∧
      (∀ key, e'.template? key =
        ((e.templatesOf (e.accepted calls)).reverse.find? (Keyed.goesTo key)).map Prod.snd) ∧
      e'.HoldsFirst (e.metadataOf (e.accepted calls)) w'.store ∧
      (∀ call, (∃ f, (e'.register call.1 call.2).outcome w' = .error f) ↔ ¬e.accepts (e.accepted calls) call) ∧
      (∀ call f, (e'.register call.1 call.2).outcome w' = .error f → ∃ w'', w'.store.Keeps w''.store ∧
        (e.registerEach (calls ++ [call])).run.run w = (.ok (e', e.accepted calls), w'')) ∧
      ∃ alone v, (e.registerEach (e.accepted calls)).run.run w = (.ok (alone, e.accepted calls), v) ∧
        alone.templates = e'.templates ∧ Keyed.keys alone.directories = Keyed.keys e'.directories ∧
        alone.HoldsFirst (e.metadataOf (e.accepted calls)) v.store := by
  obtain ⟨e', w', hrun, hfilled⟩ := registerEach_run ht hd calls w
  obtain ⟨alone, v, hrunAlone, halone⟩ := registerEach_run ht hd (e.accepted calls) w
  rw [accepted_accepted] at hrunAlone halone
  have hregister (call : Value × Value) : ((∃ f, (e'.register call.1 call.2).outcome w' = .error f) ↔
      ¬e.accepts (e.accepted calls) call) ∧
      ∀ f, (e'.register call.1 call.2).outcome w' = .error f → ∃ w'', w'.store.Keeps w''.store ∧
        (e.registerEach (calls ++ [call])).run.run w = (.ok (e', e.accepted calls), w'') := by
    rw [registerEach_concat, Run.run_bind, hrun]
    obtain ⟨w'', hkeeps, ⟨haccepts, e'', hok, -⟩ | ⟨haccepts, hf, hattempt⟩⟩ := hfilled.attempt_run call
    · simp [haccepts, hok]
    · exact ⟨iff_of_true hf (by simp [haccepts]), fun _ _ => ⟨w'', hkeeps, hattempt⟩⟩
  exact ⟨e', w', hrun, hfilled.paths, hfilled.template?, hfilled.holdsFirst, fun call => (hregister call).1,
    fun call => (hregister call).2, alone, v, hrunAlone, halone.templates.trans hfilled.templates.symm,
    halone.directories.trans hfilled.directories.symm, halone.holdsFirst⟩

/-- Calls of which the third and the last one fail. -/
def mixedCalls : List (Value × Value) :=
  [(.text "A", .text "x.html"), (.text "B", .text "./x.txt"), (.none, .text "y.html"),
    (.text "", .text "docs/one.yaml"), (.text "{}", .text "docs/two.json")]

/-- A second template takes the place of the first one of its key; a source that is not a text and a second metadata of
a directory are not registered. -/
theorem registerEach_registries_mixed : ∃ e' w', (bare.registerEach mixedCalls).run.run {} =
    (.ok (e', bare.accepted mixedCalls), w') ∧ (bare.accepted mixedCalls).length = 3 ∧ e'.paths = ["x"] ∧
      ∃ p, e'.directories.find? "docs" = some p ∧ IsRead "docs" "" w'.store p := by
  obtain ⟨e', w', hrun, hpaths, -, hfirst, -⟩ := registerEach_registries (e := bare) rfl rfl mixedCalls {}
  have hlength : (bare.accepted mixedCalls).length = 3 := by decide +kernel
  have hkeys : (Keyed.keys (bare.templatesOf (bare.accepted mixedCalls))).eraseDups = ["x"] := by decide +kernel
  have hdocs : (bare.metadataOf (bare.accepted mixedCalls)).find? (Keyed.goesTo "docs") = some ("docs", "") := by
    decide +kernel
  obtain ⟨p, hp, hread⟩ := hfirst.first "docs" _ hdocs
  exact ⟨e', w', hrun, hlength, hpaths.trans hkeys, p, hp, hread⟩

end Engine

end NestedSite
