import NestedSite.Proofs.Directory
import NestedSite.Proofs.Site.Locality
import NestedSite.Proofs.Site.Notes
import NestedSite.Proofs.Site.Opening

/-!
# Parts that are named with an extension

A part of a page may be named with an extension: its template and the metadata of its directory are those of the part
without one, but its legend is looked up by the name with the extension. So it is rendered as without one if the same
legend, or none, is found by both names (`Engine.renderOne_extended`). Only what is noted of a fault differs, for the
note has the path as it is spelled (`Run.EndsAlike`).
-/

namespace NestedSite

variable {w u : World}

namespace Engine

variable {e : Engine} {path other : String}

/-! ## Contexts that are made -/

theorem newDict_alike (es : Entries) (w : World) : (Run.newDict es).Ensures w fun v u =>
    w.AlikeRecords u ∧ ∃ p, v = .dict p := .step rfl ⟨⟨rfl, rfl, rfl⟩, _, rfl⟩

theorem contextOf_alike (v : Value) (w : World) : (contextOf v).Ensures w fun _ u => w.AlikeRecords u := by
  unfold contextOf
  split
  · exact .pure (.refl w)
  · refine (newDict_alike [] w).bind fun v u ⟨hu, p, hv⟩ => ?_
    subst hv
    exact .pure hu

theorem copiedContext_alike (v : Value) (w : World) : (copiedContext v).Ensures w fun _ u => w.AlikeRecords u := by
  unfold copiedContext
  split
  · refine .step_bind rfl ((newDict_alike _ w).bind fun v u ⟨hu, p, hv⟩ => ?_)
    subst hv
    exact .pure hu
  · exact contextOf_alike .none w

/-! ## The legend of a name -/

/-- A context is furnished alike for two paths with the same metadata and the same legend. -/
theorem furnish_congr (hu : w.AlikeRecords u)
    (hmetadata : e.directories.metadataAt? path = e.directories.metadataAt? other)
    (hlegend : (e.directories.legendAt? path).outcome w = (e.directories.legendAt? other).outcome w) (context : Nat) :
    (e.furnish path context).run.run u = (e.furnish other context).run.run u := by
  obtain ⟨o, ho⟩ := e.directories.legendAt?_run path w
  obtain ⟨o', ho'⟩ := e.directories.legendAt?_run other w
  have hfound : o = o' := by
    unfold Run.outcome at hlegend
    rwa [ho w (.refl w), ho' w (.refl w)] at hlegend
  have hlegends {v : World} (hv : w.AlikeRecords v) :
      (e.directories.legendAt? path).run.run v = (e.directories.legendAt? other).run.run v := by
    rw [ho v hv, ho' v hv, hfound]
  unfold furnish
  rw [hmetadata]
  split
  · rw [Run.run_bind, Run.run_bind, setKey_run]
    dsimp only
    rw [Run.run_bind, Run.run_bind, hlegends (hu.withEntry ..)]
  · rw [Run.run_bind, Run.run_bind, hlegends hu]

theorem ensureDefaults_run_congr (hu : w.AlikeRecords u)
    (hmetadata : e.directories.metadataAt? path = e.directories.metadataAt? other)
    (hlegend : (e.directories.legendAt? path).outcome w = (e.directories.legendAt? other).outcome w) (context : Nat) :
    (e.ensureDefaults (.text path) (.dict context)).run.run u =
      (e.ensureDefaults (.text other) (.dict context)).run.run u := by
  rw [ensureDefaults_eq, ensureDefaults_eq]
  simp only [Run.run_bind, ensureText_run, setKey_run]
  exact furnish_congr (hu.prepared context) hmetadata hlegend context

/-! ## Parts -/

/-- Two spellings of a part are rendered alike if they have the same template, metadata and legend. -/
theorem renderTo_endsAlike (hpath : Path.IsNormal path) (hother : Path.IsNormal other)
    (hkey : Path.withoutExtension path = Path.withoutExtension other)
    (hmetadata : e.directories.metadataAt? path = e.directories.metadataAt? other)
    (hlegend : (e.directories.legendAt? path).outcome w = (e.directories.legendAt? other).outcome w)
    (hu : w.AlikeRecords u) (n : Nat) (context : Value) :
    Run.EndsAlike (e.renderTo n (.text path) context) (e.renderTo n (.text other) context) u := by
  cases n with
  | zero => exact .of_run_eq rfl
  | succ n =>
    rw [renderTo_succ, renderTo_succ, nonemptyArgument_text hpath.ne_empty, nonemptyArgument_text hother.ne_empty,
      pure_bind, pure_bind, hpath.normalize_eq, hother.normalize_eq]
    refine (Run.EndsAlike.of_run_eq (m := contextOf context) rfl).bind fun p v hp => ?_
    have hv : w.AlikeRecords v := hu.trans (contextOf_alike context u p v hp)
    refine (Run.EndsAlike.of_run_eq (ensureDefaults_run_congr hv hmetadata hlegend p)).bind fun _ _ _ => ?_
    unfold putOut
    rw [hkey]
    exact .reporting path other _ _

/-- A part that is named with an extension has the template and the metadata of the part without one. Its legend is the
one that has the name with the extension; if that is the one with the name alone, the part is rendered, and included, as
without the extension. -/
theorem renderOne_extended (he : e.Reached) {key ext : String} (hkey : key ∈ e.paths) (hname : Path.name key ≠ "")
    (hpoint : '.' ∉ (Path.name key).toList) (hext : Path.IsExtension ext) :
    (∃ t, e.template? (Path.withoutExtension (Path.normalize (key ++ "." ++ ext))) = some t ∧
        e.template? (Path.withoutExtension (Path.normalize key)) = some t) ∧
      e.directories.metadataAt? (key ++ "." ++ ext) = e.directories.metadataAt? key ∧
      Path.name (key ++ "." ++ ext) = Path.name key ++ "." ++ ext ∧
      ∀ w, (e.directories.legendAt? (key ++ "." ++ ext)).outcome w = (e.directories.legendAt? key).outcome w →
        ∀ context,
          Run.EndsAlike (e.renderOne (.text (key ++ "." ++ ext)) context) (e.renderOne (.text key) context) w ∧
          ∀ n, Run.EndsAlike ((e.host n).renderPartial (.text (key ++ "." ++ ext)) context)
            ((e.host n).renderPartial (.text key) context) w := by
  have hpointless : Path.Pointless key := ⟨he.isNormal hkey, hname, hpoint⟩
  have hnormal := hpointless.isNormal_extended hext
  have hwithout := hpointless.withoutExtension_extended hext
  have hsame : Path.withoutExtension key = key := Path.withoutExtension_of_name hpoint
  have hmetadata : e.directories.metadataAt? (key ++ "." ++ ext) = e.directories.metadataAt? key := by
    unfold Directories.metadataAt?
    rw [← Directories.directoryOf_withoutExtension (key ++ "." ++ ext), hwithout]
  obtain ⟨t, ht⟩ := (renderThrough_innermost he hkey).1
  refine ⟨⟨t, ?_, ?_⟩, hmetadata, hpointless.name_extended hext, fun w hlegend context => ?_⟩
  · rwa [hnormal.normalize_eq, hwithout]
  · rwa [hpointless.normal.normalize_eq, hsame]
  · have hends {u : World} (hu : w.AlikeRecords u) (n : Nat) (context : Value) :
        Run.EndsAlike (e.renderTo n (.text (key ++ "." ++ ext)) context) (e.renderTo n (.text key) context) u :=
      renderTo_endsAlike hnormal hpointless.normal (hwithout.trans hsame.symm) hmetadata hlegend hu n context
    refine ⟨hends (.refl w) includeLimit context, fun n => ?_⟩
    exact (Run.EndsAlike.of_run_eq (m := copiedContext context) rfl).bind fun p u hp =>
      hends (copiedContext_alike context w p u hp) n (.dict p)

/-- A part, and metadata of its directory with the legend of another one. -/
def partSources : List (String × String) :=
  [("\x22files\x22: [\x7b\x22name\x22: \x22q\x22\x7d]", "a/meta.yaml"), ("X", "a/p.html")]

/-- No legend is found for a path. -/
def lacksLegend (e : Engine) (w : World) (path : String) : Bool :=
  ((e.directories.legendAt? path).outcome w).toOption == some none

/-- A part without a legend is rendered with an extension as without one. -/
theorem renderOne_extended_part : ∃ (e : Engine) (w : World), e.Reached ∧ "a/p" ∈ e.paths ∧
    (e.directories.metadataAt? "a/p").isSome ∧
    (e.directories.legendAt? "a/p.html").outcome w = (e.directories.legendAt? "a/p").outcome w ∧
    Run.EndsAlike (e.renderOne (.text "a/p.html") .none) (e.renderOne (.text "a/p") .none) w := by
  have hregistered : ((bare.registerAll partSources).run.run {}).1.toOption.any (fun e =>
      e.paths == ["a/p"] && (e.directories.metadataAt? "a/p").isSome &&
        lacksLegend e ((bare.registerAll partSources).run.run {}).2 "a/p.html" &&
        lacksLegend e ((bare.registerAll partSources).run.run {}).2 "a/p") = true := by
    decide +kernel
  obtain ⟨e, he, hfound⟩ := (Option.any_eq_true _ _).1 hregistered
  simp only [Bool.and_eq_true, beq_iff_eq, lacksLegend] at hfound
  obtain ⟨⟨⟨hpaths, hmetadata⟩, hextended⟩, halone⟩ := hfound
  have hlegend := (eq_ok_of_toOption hextended).trans (eq_ok_of_toOption halone).symm
  have hreached : e.Reached := reached_bare.registerAll he
  have hmem : "a/p" ∈ e.paths := hpaths ▸ List.mem_cons_self
  have hext : Path.IsExtension "html" := ⟨by decide, by decide, by decide⟩
  obtain ⟨-, -, -, hends⟩ := renderOne_extended hreached hmem (by decide) (by decide) hext
  exact ⟨e, _, hreached, hmem, hmetadata, hlegend, (hends _ hlegend .none).1⟩

end Engine

end NestedSite
