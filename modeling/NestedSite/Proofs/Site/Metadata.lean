import NestedSite.Proofs.Directory
import NestedSite.Proofs.Site.Locality
import NestedSite.Proofs.Site.Lookup

/-!
# Metadata of directories

Of calls that register sources one after the other, those count for a path that register metadata of its directory
(`Engine.find?_metadataOf_skip`), and of them the first one (`Engine.find?_metadataOf_accepted`): what other metadata is
registered changes no answer for the path (`Engine.HoldsFirst.answersAlike`). Metadata that is registered has a place of
its own (`Engine.registerEach_apart`). So a template is under the metadata that is registered for the directory of its
path, and under no other (`Engine.registerEach_metadata`), however the paths are spelled.
-/

namespace NestedSite

namespace Engine

variable {e e' : Engine} {calls : List (Value × Value)} {call : Value × Value} {s t : Store} {w w' : World}

/-! ## Places of their own -/

/-- The metadata of different directories is at different places, all of which are in use. -/
structure Apart (e : Engine) (s : Store) : Prop where
  used : ∀ d ∈ e.directories, d.2 < s.metadata.size
  nodup : (e.directories.map Prod.snd).Nodup

theorem Apart.keeps (h : e.Apart s) (k : s.Keeps t) : e.Apart t where
  used d hd := (k.metadata d.2 (h.used d hd)).1
  nodup := h.nodup

theorem Apart.addDirectory (h : e.Apart s) (k : s.Keeps t) (directory : String) {p : Nat}
    (hnew : s.metadata.size ≤ p) (hused : p < t.metadata.size) : (e.addDirectory directory p).Apart t where
  used := List.forall_mem_append.2 ⟨(h.keeps k).used, List.forall_mem_singleton.2 hused⟩
  nodup := by
    have hfresh : p ∉ e.directories.map Prod.snd := by
      intro hmem
      obtain ⟨d, hd, rfl⟩ := List.mem_map.1 hmem
      exact Nat.not_lt.2 hnew (h.used d hd)
    have hplaces : (e.addDirectory directory p).directories.map Prod.snd = (e.directories.map Prod.snd).concat p := by
      rw [List.concat_eq_append]
      exact List.map_append
    rw [hplaces]
    exact h.nodup.concat hfresh

/-- Different directories have different metadata. -/
theorem Apart.directory_inj (h : e.Apart s) {directory other : String} {p : Nat}
    (hd : e.directories.find? directory = some p) (ho : e.directories.find? other = some p) : directory = other := by
  obtain ⟨d, hfound, hp⟩ := Option.map_eq_some_iff.1 hd
  obtain ⟨o, hfound', hp'⟩ := Option.map_eq_some_iff.1 ho
  have heq : d = o := List.inj_on_of_nodup_map h.nodup (List.mem_of_find?_eq_some hfound)
    (List.mem_of_find?_eq_some hfound') (hp.trans hp'.symm)
  have hkey : d.1 = directory := Keyed.key_of_find? hfound
  have hkey' : o.1 = other := Keyed.key_of_find? hfound'
  rw [← hkey, ← hkey', heq]

/-- Metadata that is read gets a new place. -/
theorem readMetadata_new (directory text : String) (w : World) : (readMetadata directory text).Ensures w fun p w' =>
    w.store.metadata.size ≤ p ∧ p < w'.store.metadata.size := by
  refine .and (fun p w' hrun => ?_) (readMetadata_ensures directory text w)
  obtain ⟨houtcome, -⟩ := (readMetadata_moves (ρ := .behind w.store) directory text).beginning
  have hok : (readMetadata directory text).outcome w = .ok p := congrArg Prod.fst hrun
  rw [hok] at houtcome
  cases hp₀ : (readMetadata directory text).outcome {} with
  | error f =>
    rw [hp₀] at houtcome
    cases houtcome
  | ok p₀ =>
    rw [hp₀] at houtcome
    obtain rfl := Except.ok.inj houtcome
    exact Nat.le_add_right _ _

theorem registerMetadata_apart (h : e.Apart w.store) (directory text : String) :
    (e.registerMetadata directory text).Ensures w fun e' w' => e'.Apart w'.store := by
  unfold registerMetadata
  intro e' w' hrun
  rw [Run.run_bind] at hrun
  rcases hread : (readMetadata directory text).run.run w with ⟨f | p, u⟩
  · rw [hread] at hrun
    cases hrun
  · obtain ⟨hnew, hused⟩ := readMetadata_new directory text w p u hread
    obtain ⟨hkeeps, -⟩ := readMetadata_cases directory text hread
    rw [hread] at hrun
    dsimp only at hrun
    split at hrun
    · cases hrun
    · cases hrun
      exact h.addDirectory hkeeps directory hnew hused

theorem registerTemplate_apart (h : e.Apart w.store) (path text : String) :
    (e.registerTemplate path text).Ensures w fun e' w' => e'.Apart w'.store := by
  unfold registerTemplate
  cases Template.compile text with
  | error f => exact .throw
  | ok t =>
    refine .step_bind rfl (.pure ?_)
    unfold putTemplate
    split <;> exact ⟨h.used, h.nodup⟩

theorem register_apart (h : e.Apart w.store) (text path : Value) :
    (e.register text path).Ensures w fun e' w' => e'.Apart w'.store := by
  cases text
  case text text =>
    cases path
    case text path =>
      by_cases hpath : path = ""
      · subst hpath
        exact .throw
      · rw [register_text text hpath]
        split
        · exact registerMetadata_apart h _ text
        · exact registerTemplate_apart h _ text
    all_goals exact .throw
  all_goals exact .throw

/-- Also a call that fails leaves the places apart, for what it reads lies behind them. -/
theorem attempt_apart (h : e.Apart w.store) (done : List (Value × Value)) (call : Value × Value) :
    (attempt (e, done) call).Ensures w fun state w' => state.1.Apart w'.store := by
  intro state w' hrun
  unfold attempt at hrun
  rw [Run.run_tryCatch, Run.run_bind] at hrun
  rcases hregister : (e.register call.1 call.2).run.run w with ⟨f | e', u⟩
  · rw [hregister] at hrun
    cases hrun
    exact h.keeps (register_registers hregister).2
  · rw [hregister] at hrun
    cases hrun
    exact register_apart h call.1 call.2 e' _ hregister

theorem registerEach_apart (hd : e.directories = []) (calls : List (Value × Value)) (w : World) :
    (e.registerEach calls).Ensures w fun state w' => state.1.Apart w'.store := by
  induction calls using List.reverseRecOn with
  | nil => exact .pure ⟨by simp [hd], by simp [hd]⟩
  | append_singleton calls call ih =>
    rw [registerEach_concat]
    exact ih.bind fun state w' h => attempt_apart h state.2 call

/-! ## Calls that are accepted -/

theorem mem_of_mem_accepted (h : call ∈ e.accepted calls) :
    call ∈ calls ∧ ∃ r, e.registration? call = some r := by
  induction calls using List.reverseRecOn with
  | nil => cases h
  | append_singleton calls other ih =>
    rw [accepted_concat] at h
    split at h
    · rename_i haccepts
      rcases List.mem_append.1 h with h | h
      · exact (ih h).imp_left (List.mem_append_left _)
      · obtain rfl := List.mem_singleton.1 h
        refine ⟨List.mem_append_right _ h, ?_⟩
        unfold accepts at haccepts
        cases hr : e.registration? call with
        | none =>
          rw [hr] at haccepts
          cases haccepts
        | some r => exact ⟨r, rfl⟩
    · exact (ih h).imp_left (List.mem_append_left _)

/-- A template is accepted whatever comes before it. -/
theorem mem_accepted_of_template {key : String} {t : Template} (h : call ∈ calls)
    (hr : e.registration? call = some (.template key t)) : call ∈ e.accepted calls := by
  induction calls using List.reverseRecOn with
  | nil => cases h
  | append_singleton calls other ih =>
    rw [accepted_concat]
    rcases List.mem_append.1 h with h | h
    · split
      · exact List.mem_append_left _ (ih h)
      · exact ih h
    · obtain rfl := List.mem_singleton.1 h
      have haccepts : e.accepts (e.accepted calls) call = true := by
        unfold accepts
        rw [hr]
      rw [if_pos haccepts]
      exact List.mem_append_right _ (List.mem_singleton_self call)

/-- What a call with a relative path registers. -/
theorem registration?_relative {text path : String} (hrelative : Path.isAbsolute path = false) {r : Registration}
    (hr : e.registration? (.text text, .text path) = some r) :
    registrationAt? (Path.normalize path) text = some r := by
  have hpath : Path.relativeTo e.workDir e.root path = Path.normalize path := by
    rw [Path.relativeTo, hrelative, if_neg Bool.false_ne_true]
  unfold registration? at hr
  dsimp only at hr
  split at hr
  · cases hr
  · rwa [hpath] at hr

theorem registration?_metadata {text path : String} (hrelative : Path.isAbsolute path = false)
    (hext : metadataExtensions.contains (Path.extension (Path.normalize path)) = true) {r : Registration}
    (hr : e.registration? (.text text, .text path) = some r) :
    r = .metadata (Path.parent (Path.normalize path)) text := by
  have hat := registration?_relative hrelative hr
  rw [registrationAt?, if_pos hext] at hat
  obtain ⟨p, -, rfl⟩ := Option.map_eq_some_iff.1 hat
  rfl

theorem registration?_template {text path : String} (hrelative : Path.isAbsolute path = false)
    (hext : metadataExtensions.contains (Path.extension (Path.normalize path)) = false) {r : Registration}
    (hr : e.registration? (.text text, .text path) = some r) :
    ∃ t, r = .template (Path.withoutExtension (Path.normalize path)) t := by
  have hat := registration?_relative hrelative hr
  rw [registrationAt?, if_neg (by rw [hext]; exact Bool.false_ne_true)] at hat
  obtain ⟨t, -, rfl⟩ := Option.map_eq_some_iff.1 hat
  exact ⟨t, rfl⟩

/-! ## Metadata of other directories -/

/-- A call that is not accepted registers no metadata of a directory, unless there is some before it. -/
theorem find?_metadataOf_accepted (e : Engine) (calls : List (Value × Value)) (directory : String) :
    (e.metadataOf (e.accepted calls)).find? (Keyed.goesTo directory) =
      (e.metadataOf calls).find? (Keyed.goesTo directory) := by
  induction calls using List.reverseRecOn with
  | nil => rfl
  | append_singleton calls call ih =>
    rw [accepted_concat, metadataOf_concat, List.find?_append, ← ih]
    split
    · rw [metadataOf_concat, List.find?_append]
    · rename_i hrefused
      unfold accepts at hrefused
      cases hr : e.registration? call with
      | none => simp
      | some r =>
        rw [hr] at hrefused
        cases r with
        | template key t => exact absurd rfl hrefused
        | metadata other text =>
          -- the directory of the call has metadata already
          have hother : other ∈ Keyed.keys (e.metadataOf (e.accepted calls)) := by simpa using hrefused
          cases hfind : (e.metadataOf (e.accepted calls)).find? (Keyed.goesTo directory) with
          | some source => rfl
          | none =>
            have hne : other ≠ directory := fun heq => Keyed.find?_eq_none.1 hfind (heq ▸ hother)
            simp [Registration.metadata?, Keyed.goesTo, hne]

/-- A call that registers no metadata of the directory does not count. -/
theorem find?_metadataOf_skip {directory : String}
    (hcall : ∀ text, e.registration? call ≠ some (.metadata directory text)) (before after : List (Value × Value)) :
    (e.metadataOf (before ++ call :: after)).find? (Keyed.goesTo directory) =
      (e.metadataOf (before ++ after)).find? (Keyed.goesTo directory) := by
  have hskip : (e.metadataOf [call]).find? (Keyed.goesTo directory) = none := by
    rw [List.find?_eq_none]
    rintro ⟨other, text⟩ hsource hgoes
    obtain ⟨_, hmem, hr⟩ := List.mem_filterMap.1 hsource
    obtain rfl := List.mem_singleton.1 hmem
    obtain ⟨r, hr, hmetadata⟩ := Option.bind_eq_some_iff.1 hr
    cases r with
    | template key t => cases hmetadata
    | metadata _ _ =>
      cases hmetadata
      obtain rfl : other = directory := by simpa [Keyed.goesTo] using hgoes
      exact hcall text hr
  rw [← List.singleton_append]
  unfold metadataOf at *
  rw [List.filterMap_append, List.filterMap_append, List.filterMap_append, List.find?_append, List.find?_append,
    List.find?_append, hskip, Option.none_or]

/-! ## Lookups -/

/-- The lookups of a path answer alike with two engines: what they find are copies of the same metadata and of the same
legend, if anything, and the path is ignored with both engines or with none. -/
def AnswersAlike (e : Engine) (w : World) (e' : Engine) (w' : World) (path : String) : Prop :=
  ∃ (s : Store) (ρ ρ' : Relocation) (metadata legend : Option Nat) (ignored : Bool),
    ρ.Carries s w.store ∧ ρ'.Carries s w'.store ∧
      (∀ p ∈ metadata, p < s.metadata.size) ∧ (∀ l ∈ legend, l < s.legends.size) ∧
      e.Answers w path (metadata.map ρ.metadata) (legend.map ρ.legends) ignored ∧
      e'.Answers w' path (metadata.map ρ'.metadata) (legend.map ρ'.legends) ignored

theorem answers_carried {p : Nat} {ρ : Relocation} {path : String} (h : s.SoundAt p) (hc : ρ.Carries s w.store)
    (hp : e.directories.metadataAt? path = some (ρ.metadata p)) :
    e.Answers w path ((some p).map ρ.metadata) ((s.legendNamed? p (Path.name path)).map ρ.legends)
      ((s.metadataAt p).hides (Path.name path)) := by
  rw [← h.legendNamed?_carries hc, ← h.hides_carries hc]
  exact answers_of hp (h.carries hc)

/-- What is looked up at a path depends on the first source of metadata for its directory. -/
theorem HoldsFirst.answersAlike {sources sources' : List (String × String)} (h : e.HoldsFirst sources w.store)
    (h' : e'.HoldsFirst sources' w'.store) {path : String}
    (hfind : sources.find? (Keyed.goesTo (Directories.directoryOf path)) =
      sources'.find? (Keyed.goesTo (Directories.directoryOf path))) : AnswersAlike e w e' w' path := by
  cases hsource : sources.find? (Keyed.goesTo (Directories.directoryOf path)) with
  | none =>
    have hmissing := h.missing _ (Keyed.find?_eq_none.1 hsource)
    have hmissing' := h'.missing _ (Keyed.find?_eq_none.1 (hfind ▸ hsource))
    exact ⟨{}, .behind w.store, .behind w'.store, none, none, false, (Relocation.behind_fits _).carries,
      (Relocation.behind_fits _).carries, nofun, nofun, answers_nothing hmissing w, answers_nothing hmissing' w'⟩
  | some source =>
    obtain ⟨p, hp, p₀, ρ, hread, hlt, hcarries, rfl⟩ := h.first _ source hsource
    obtain ⟨p', hp', p₁, ρ', hread', -, hcarries', rfl⟩ := h'.first _ source (hfind ▸ hsource)
    obtain rfl := Except.ok.inj (hread.symm.trans hread')
    have hsound : ((readMetadata (Directories.directoryOf path) source.2).after {}).store.SoundAt p₀ :=
      readMetadata_sound _ _ p₀ _ (Prod.ext hread rfl)
    exact ⟨_, ρ, ρ', some p₀, _, _, hcarries, hcarries', fun p hp => by cases hp; exact hlt,
      fun l hl => hsound.legends l (List.mem_of_find?_eq_some hl), answers_carried hsound hcarries hp,
      answers_carried hsound hcarries' hp'⟩

/-- What is registered under a path is looked up in the directory of the path. -/
theorem directoryOf_key (path : String) : Directories.directoryOf (Path.withoutExtension (Path.normalize path)) =
    Path.parent (Path.normalize path) := by
  rw [Directories.directoryOf_withoutExtension, Directories.directoryOf_of_isNormal (Path.isNormal_normalize path)]

theorem Filled.mem_paths {done : List (Value × Value)} (h : e.Filled done e' s) {key : String} {t : Template}
    (hcall : call ∈ done) (hr : e.registration? call = some (.template key t)) : key ∈ e'.paths := by
  have hmem : (key, t) ∈ e.templatesOf done := List.mem_filterMap.2 ⟨call, hcall, by rw [hr]; rfl⟩
  rw [h.paths, List.mem_eraseDups]
  exact List.mem_map_of_mem hmem

theorem Filled.metadata_of_mem {done : List (Value × Value)} (h : e.Filled done e' s) {directory text : String}
    (hcall : call ∈ done) (hr : e.registration? call = some (.metadata directory text)) :
    ∃ p, e'.directories.find? directory = some p ∧ IsRead directory text s p :=
  h.metadata (directory, text) (List.mem_filterMap.2 ⟨call, hcall, by rw [hr]; rfl⟩)

/-- Metadata reaches exactly the templates of its directory. A template is looked up under its path without extension:
the metadata that is found is the one that is read from a source just if the path of the source has the same directory
as that of the template. Then the legend of the template is the first one of the metadata that has the last segment of
the key for its name, and the template is ignored just if the pattern of the metadata occurs in that segment. Metadata
that is registered for another directory, at whatever time, changes none of this. -/
theorem registerEach_metadata (ht : e.templates = []) (hd : e.directories = []) (calls : List (Value × Value))
    (w : World) : ∃ e' w', (e.registerEach calls).run.run w = (.ok (e', e.accepted calls), w') ∧
      ∀ text path key, (.text text, .text path) ∈ e.accepted calls → Path.isAbsolute path = false →
        metadataExtensions.contains (Path.extension (Path.normalize path)) = false →
        key = Path.withoutExtension (Path.normalize path) →
        key ∈ e'.paths ∧
        (∀ source m, (.text source, .text m) ∈ e.accepted calls → Path.isAbsolute m = false →
          metadataExtensions.contains (Path.extension (Path.normalize m)) = true →
          ∃ p, IsRead (Path.parent (Path.normalize m)) source w'.store p ∧ w'.store.SoundAt p ∧
            ((e'.metadataAt (.text key)).outcome w' = .ok (.metadata p) ↔
              Path.parent (Path.normalize m) = Path.parent (Path.normalize path)) ∧
            (Path.parent (Path.normalize m) = Path.parent (Path.normalize path) →
              e'.Answers w' key (some p) (w'.store.legendNamed? p (Path.name key))
                ((w'.store.metadataAt p).hides (Path.name key)))) ∧
        ∀ before source m after, calls = before ++ (.text source, .text m) :: after → Path.isAbsolute m = false →
          metadataExtensions.contains (Path.extension (Path.normalize m)) = true →
          Path.parent (Path.normalize m) ≠ Path.parent (Path.normalize path) →
          ∃ e'' w'', (e.registerEach (before ++ after)).run.run w = (.ok (e'', e.accepted (before ++ after)), w'') ∧
            key ∈ e''.paths ∧ AnswersAlike e' w' e'' w'' key := by
  obtain ⟨e', w', hrun, hfilled⟩ := registerEach_run ht hd calls w
  have hapart : e'.Apart w'.store := registerEach_apart hd calls w _ _ hrun
  refine ⟨e', w', hrun, ?_⟩
  rintro text path key hcall hrelative hext hkey
  have hdirectory : Directories.directoryOf key = Path.parent (Path.normalize path) := hkey ▸ directoryOf_key path
  have hlookup : e'.directories.metadataAt? key = e'.directories.find? (Path.parent (Path.normalize path)) :=
    congrArg e'.directories.find? hdirectory
  obtain ⟨hmem, r, hr⟩ := mem_of_mem_accepted hcall
  obtain ⟨t, rfl⟩ := registration?_template hrelative hext hr
  rw [← hkey] at hr
  refine ⟨hfilled.mem_paths hcall hr, fun source m hm hmrelative hmext => ?_, ?_⟩
  · obtain ⟨-, r, hmr⟩ := mem_of_mem_accepted hm
    obtain rfl := registration?_metadata hmrelative hmext hmr
    obtain ⟨p, hp, hread⟩ := hfilled.metadata_of_mem hm hmr
    refine ⟨p, hread, hread.soundAt, ?_, fun heq => ?_⟩
    · rw [Run.outcome, metadataAt_run, hlookup]
      constructor
      · intro hok
        cases hfound : e'.directories.find? (Path.parent (Path.normalize path)) with
        | none =>
          rw [hfound] at hok
          cases hok
        | some q =>
          rw [hfound] at hok
          cases hok
          exact hapart.directory_inj hp hfound
      · intro heq
        rw [← heq, hp]
        rfl
    · rw [heq] at hp
      exact answers_of (hlookup.trans hp) hread.soundAt
  · rintro before source m after rfl hmrelative hmext hne
    obtain ⟨e'', w'', hrun', hfilled'⟩ := registerEach_run ht hd (before ++ after) w
    have hother (r : Registration) (hmr : e.registration? (.text source, .text m) = some r) :
        r = .metadata (Path.parent (Path.normalize m)) source := registration?_metadata hmrelative hmext hmr
    refine ⟨e'', w'', hrun', ?_, hfilled.holdsFirst.answersAlike hfilled'.holdsFirst ?_⟩
    · -- the template is not what is left out
      have hmem' : (Value.text text, Value.text path) ∈ before ++ after := by
        rcases List.mem_append.1 hmem with hmem | hmem
        · exact List.mem_append_left _ hmem
        · rcases List.mem_cons.1 hmem with heq | hmem
          · rw [heq] at hr
            cases hother _ hr
          · exact List.mem_append_right _ hmem
      exact hfilled'.mem_paths (mem_accepted_of_template hmem' hr) hr
    · rw [find?_metadataOf_accepted, find?_metadataOf_accepted]
      refine find?_metadataOf_skip (fun text hmr => hne ?_) before after
      obtain ⟨hparent, -⟩ := Registration.metadata.inj (hother _ hmr)
      rw [← hparent, hdirectory]

/-- A page, metadata for it, and metadata of another directory. -/
def docsCalls : List (Value × Value) :=
  [(.text "\x22ignore\x22: \x22draft\x22", .text "./docs/meta.yaml"), (.text "A", .text "docs//x/../intro.html"),
    (.text "\x22ignore\x22: \x22intro\x22", .text "blog/meta.yaml")]

theorem accepted_docsCalls : bare.accepted docsCalls = docsCalls := by
  have hfirst : bare.accepts [] (.text "\x22ignore\x22: \x22draft\x22", .text "./docs/meta.yaml") = true := by
    decide +kernel
  have hsecond : bare.accepts [(.text "\x22ignore\x22: \x22draft\x22", .text "./docs/meta.yaml")]
      (.text "A", .text "docs//x/../intro.html") = true := by decide +kernel
  have hthird : bare.accepts (docsCalls.take 2) (.text "\x22ignore\x22: \x22intro\x22", .text "blog/meta.yaml") =
      true := by decide +kernel
  simp only [docsCalls, List.take_succ_cons, List.take_zero] at hthird
  simp [accepted, docsCalls, hfirst, hsecond, hthird]

/-- The page is under the metadata of its directory, and not under the other one, which may as well be left out. -/
theorem registerEach_metadata_docs : ∃ e' w', (bare.registerEach docsCalls).run.run {} = (.ok (e', docsCalls), w') ∧
    "docs/intro" ∈ e'.paths ∧
    (∃ p, IsRead "docs" "\x22ignore\x22: \x22draft\x22" w'.store p ∧
      (e'.metadataAt (.text "docs/intro")).outcome w' = .ok (.metadata p)) ∧
    (∃ p, IsRead "blog" "\x22ignore\x22: \x22intro\x22" w'.store p ∧
      (e'.metadataAt (.text "docs/intro")).outcome w' ≠ .ok (.metadata p)) ∧
    ∃ e'' w'', (bare.registerEach (docsCalls.take 2)).run.run {} = (.ok (e'', bare.accepted (docsCalls.take 2)), w'') ∧
      AnswersAlike e' w' e'' w'' "docs/intro" := by
  obtain ⟨e', w', hrun, hall⟩ := registerEach_metadata (e := bare) rfl rfl docsCalls {}
  rw [accepted_docsCalls] at hrun hall
  obtain ⟨hmem, hmetadata, hskip⟩ := hall "A" "docs//x/../intro.html" "docs/intro" (by simp [docsCalls]) (by decide)
    (by decide +kernel) (by decide +kernel)
  obtain ⟨p, hp, -, hdocs, -⟩ := hmetadata _ "./docs/meta.yaml" (.head _) (by decide) (by decide +kernel)
  obtain ⟨q, hq, -, hblog, -⟩ := hmetadata _ "blog/meta.yaml" (.tail _ (.tail _ (.head _))) (by decide)
    (by decide +kernel)
  obtain ⟨e'', w'', hrun', -, halike⟩ := hskip (docsCalls.take 2) _ "blog/meta.yaml" [] rfl (by decide)
    (by decide +kernel) (by decide +kernel)
  have hparents : Path.parent (Path.normalize "./docs/meta.yaml") = "docs" ∧
      Path.parent (Path.normalize "blog/meta.yaml") = "blog" ∧
      Path.parent (Path.normalize "docs//x/../intro.html") = "docs" := by decide +kernel
  rw [hparents.1] at hp hdocs
  rw [hparents.2.1] at hq hblog
  rw [hparents.2.2] at hdocs hblog
  exact ⟨e', w', hrun, hmem, ⟨p, hp, hdocs.2 rfl⟩, ⟨q, hq, fun hok => absurd (hblog.1 hok) (by decide)⟩, e'', w'',
    hrun', halike⟩

end Engine

end NestedSite
