import Mathlib.Tactic.IntervalCases
import NestedSite.Proofs.Store.Entries
import NestedSite.Proofs.Template.Nesting
import NestedSite.Proofs.Template.Scan

/-!
# Frames

A `Frame` is a template that puts the content between two texts. Its source has one fragment, as neither text opens one
(`Frame.scan_source`), so it is compiled to the output of the content between at most two literals
(`Frame.compile_source`), and puts out whatever the content is between the two texts (`Frame.render_run`).
-/

namespace NestedSite.Template

open Text

/-- No delimiter opens in the text, whatever stands behind it. -/
def Plain (cs : List Char) : Prop := ∀ k : Delimiter, ¬[k.opener, k.opener] <:+: cs

/-- The texts before and after a content. Neither holds an opener, nor does the first one end in half of one. -/
structure Frame where
  before : String
  after : String
  before_plain : Plain before.toList
  before_end : before.toList.getLast? ≠ some '\x7b'
  after_plain : Plain after.toList

theorem Plain.not_doubledAt {cs : List Char} (h : Plain cs) (k : Delimiter) (p : Nat) : ¬DoubledAt k.opener cs p :=
  fun hdoubled => h k (hdoubled.isInfix.trans (List.drop_suffix p cs).isInfix)

theorem Plain.not_opens {cs : List Char} (h : Plain cs) (p : Nat) : ¬Opens cs p := fun ⟨k, _, hspans⟩ =>
  h.not_doubledAt k p hspans.opens

/-- Whether an expression is the given name. -/
def Expr.isName (id : String) : Expr → Bool
  | .name other => other == id
  | _ => false

theorem Expr.eq_of_isName {x : Expr} {id : String} (h : x.isName id = true) : x = .name id := by
  unfold Expr.isName at h
  split at h
  · rw [beq_iff_eq.1 h]
  · cases h

namespace Frame

variable (f : Frame)

/-- The fragment that puts out the content. -/
def fragment : String := "\x7b\x7b $content \x7d\x7d"

def source : String := f.before ++ fragment ++ f.after

/-- A text between the texts of the frame. -/
def enclose (text : String) : String := f.before ++ text ++ f.after

/-! ## The fragment -/

theorem toList_source : f.source.toList = f.before.toList ++ (fragment.toList ++ f.after.toList) := by
  simp [source]

theorem toList_fragment : fragment.toList =
    ['\x7b', '\x7b', ' ', '$', 'c', 'o', 'n', 't', 'e', 'n', 't', ' ', '\x7d', '\x7d'] := by decide

/-- Nothing opens before the fragment. -/
theorem le_of_doubledAt {k : Delimiter} {p : Nat} (h : DoubledAt k.opener f.source.toList p) :
    f.before.toList.length ≤ p := by
  rw [toList_source] at h
  by_contra hlt
  have hlt : p < f.before.toList.length := Nat.lt_of_not_le hlt
  rcases Nat.lt_or_ge (p + 1) f.before.toList.length with hinside | hend
  · -- both characters stand in the first text
    refine f.before_plain.not_doubledAt k p (List.prefix_of_prefix_length_le h ?_ ?_)
    · rw [List.drop_append_of_le_length hlt.le]
      exact List.prefix_append _ _
    · rw [List.length_drop, List.length_cons, List.length_singleton]
      omega
  · -- the first one ends the text, and the second one is the brace that opens the fragment
    have hlast : f.before.toList.getLast? = some k.opener := by
      have hget := h.getElem?_eq
      rwa [List.getElem?_append_left hlt, show p = f.before.toList.length - 1 by omega,
        ← List.getLast?_eq_getElem?] at hget
    have hbrace : k.opener = '\x7b' := by
      have hcut := congrArg (·[1]?) h.eq
      simp only [List.getElem?_drop, toList_fragment] at hcut
      rw [show p + 1 = f.before.toList.length by omega, List.getElem?_append_right (Nat.le_refl _)] at hcut
      simpa using hcut.symm
    exact f.before_end (hbrace ▸ hlast)

theorem closes_fragment (cs : List Char) : Delimiter.value.Closes (fragment.toList ++ cs) 0 12 := by
  rw [toList_fragment]
  refine .filled ⟨⟨⟨⟨_, rfl⟩, ⟨cs, rfl⟩, by decide⟩, fun hblank => ?_⟩, fun q ⟨hspans, _⟩ => ?_⟩
  · exact absurd (hblank '$' (by simp [between])) (by decide)
  · have hapart := hspans.apart
    have hget := hspans.closes.getElem?_eq
    by_contra hlt
    have hlt : q < 12 := Nat.lt_of_not_le hlt
    interval_cases q <;> simp [Delimiter.closer] at hget

theorem isLeast_opens : IsLeast {p | Opens f.source.toList p} f.before.toList.length := by
  refine ⟨?_, fun p ⟨k, q, hspans⟩ => f.le_of_doubledAt hspans.opens⟩
  rw [toList_source]
  exact opens_append (p := 0).2 ⟨.value, 12, (closes_fragment _).spans⟩

theorem scan_source : Instruction.scan f.source =
    literals f.before.toList ++ .expression "$content" :: literals f.after.toList := by
  have hclosed : Delimiter.value.Closes f.source.toList f.before.toList.length (f.before.toList.length + 12) := by
    rw [toList_source]
    exact (closes_fragment f.after.toList).append
  have hrest : f.source.toList.drop (f.before.toList.length + 12 + 2) = f.after.toList := by
    rw [toList_source, Nat.add_assoc, List.drop_length_add_append, toList_fragment]
    rfl
  have hrest' : Scans (f.source.toList.drop (f.before.toList.length + 12 + 2)) (literals f.after.toList) := by
    rw [hrest]
    exact .literal f.after_plain.not_opens
  have hbefore : f.source.toList.take f.before.toList.length = f.before.toList := by
    rw [toList_source, List.take_left]
  have hcode : strip (between f.source.toList f.before.toList.length (f.before.toList.length + 12)) =
      "$content".toList := by
    rw [toList_source, ← Nat.add_zero f.before.toList.length, Nat.add_assoc, between_append, toList_fragment]
    rfl
  have hscans := Scans.fragment f.isLeast_opens hclosed hrest'
  rw [hbefore, hcode, String.ofList_toList] at hscans
  exact (scan_scans f.source).unique hscans

/-! ## Compiling -/

/-- The block that a text makes, unless it is empty. -/
def texts (text : String) : List Block := if text.isEmpty then [] else [.text text]

/-- What the fragment becomes. -/
def blocks : List Block := texts f.before ++ .output (.name "_dollar_content") :: texts f.after

theorem parseExpression_content : parseExpression "$content" = .ok (.name "_dollar_content") := by
  have hname : (parseExpression "$content").toOption.map (·.isName "_dollar_content") = some true := by
    decide +kernel
  obtain ⟨x, hparse, hx⟩ := exists_ok_of_map hname
  rw [hparse, Expr.eq_of_isName hx]

/-- The mark that a text makes, unless it is empty. -/
def marks (text : String) : List Mark := if text.isEmpty then [] else [.text text]

theorem mark_literals (text : String) : (literals text.toList).mapM Instruction.mark = .ok (marks text) := by
  unfold literals marks
  by_cases htext : text = ""
  · rw [htext]
    rfl
  · rw [if_neg (by simpa using htext), if_neg (by simpa using htext), String.ofList_toList]
    rfl

theorem blocks_texts (text : String) : Blocks (marks text) (texts text) := by
  unfold marks texts
  split
  · exact .nil
  · exact .text text .nil

theorem mark_source : (Instruction.scan f.source).mapM Instruction.mark =
    .ok (marks f.before ++ .output (.name "_dollar_content") :: marks f.after) := by
  have hmark : (Instruction.expression "$content").mark = .ok (.output (.name "_dollar_content")) := by
    rw [Instruction.mark, parseExpression_content]
    rfl
  rw [scan_source, List.mapM_append, mark_literals, List.mapM_cons, hmark, mark_literals]
  rfl

theorem compile_source : compile f.source = .ok ⟨Instruction.scan f.source, f.blocks⟩ := by
  have hblocks : Blocks (marks f.before ++ .output (.name "_dollar_content") :: marks f.after) f.blocks :=
    (blocks_texts f.before).append (.output _ (blocks_texts f.after))
  have hbuild : buildBlocks (Instruction.scan f.source) = .ok f.blocks := by
    rcases buildBlocks_of_marks f.mark_source with ⟨bs, hbuild, hbs⟩ | ⟨hnone, -⟩
    · rw [hbuild, hbs.unique hblocks]
    · exact absurd hblocks (hnone _)
  simp only [compile, hbuild]
  rfl

/-! ## Rendering -/

theorem executeAll_texts (setting : Setting) (text : String) (bs : List Block) (progress : Progress) :
    (Step.executeAll setting (texts text ++ bs)).run progress =
      (Step.executeAll setting bs).run { progress with output := progress.output ++ text } := by
  unfold texts
  split
  · rename_i hempty
    rw [String.isEmpty_iff.1 hempty, String.append_empty, List.nil_append]
  · rfl

theorem eval_content (host : Host) (scope : Scope) {context : Nat} {w : World} {v : Value}
    (hlocals : scope.locals = []) (hcontext : scope.context = some context)
    (h : w.binding? context contentKey = some v) :
    ((Expr.name "_dollar_content").eval host scope).run.run w = (.ok v, w) := by
  have hkey : scopeKey "_dollar_content" = contentKey := by decide
  have hfind : scope.find? w.store contentKey = some v := by
    rw [World.binding?] at h
    simp only [Scope.find?, hlocals, hcontext, Option.bind_some, h]
    rfl
  unfold Expr.eval
  rw [hkey]
  show (Except.ok ((scope.find? w.store contentKey).getD .none), w) = _
  rw [hfind, Option.getD_some]

theorem executeAll_content {setting : Setting} {context : Nat} {w : World} {text : String}
    (hcontext : setting.context = some context) (h : w.binding? context contentKey = some (.text text))
    (bs : List Block) (output : String) :
    ((Step.executeAll setting (.output (.name "_dollar_content") :: bs)).run { output }).run.run w =
      ((Step.executeAll setting bs).run { output := output ++ text }).run.run w := by
  have heval := eval_content setting.host ⟨[], setting.context, setting.base⟩ rfl hcontext h
  have hevaluate : ((Step.evaluate setting (.name "_dollar_content")).run { output }).run.run w =
      (.ok (.text text, { output }), w) := by
    show ((Expr.name "_dollar_content").eval setting.host ⟨[], setting.context, setting.base⟩ >>= fun v =>
      pure (v, ({ output } : Progress))).run.run w = _
    rw [Run.run_bind, heval]
    rfl
  rw [Step.executeAll, Step.execute, StateT.run_bind, StateT.run_bind, Run.run_bind, Run.run_bind, hevaluate]
  rfl

/-- A frame puts out the content between its texts, whatever it is. -/
theorem render_run {host : Host} {base : Bindings} {context : Nat} {w : World} {text : String}
    (h : w.binding? context contentKey = some (.text text)) {t : Template} (ht : compile f.source = .ok t) :
    (t.render host base (some context)).run.run w = (.ok (f.enclose text), w) := by
  rw [compile_source] at ht
  cases ht
  unfold Template.render blocks
  rw [executeAll_texts, Run.run_bind, executeAll_content rfl h, ← List.append_nil (texts f.after), executeAll_texts]
  show (Except.ok ("" ++ f.before ++ text ++ f.after), w) = _
  rw [String.empty_append]
  rfl

end Frame

end NestedSite.Template
