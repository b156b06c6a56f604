import Mathlib
import NestedSite.Proofs.Yaml.Scalar
import NestedSite.Yaml.Layout

/-!
# The faults of scanning

What ends the tokens of a text is a known fault (`Token.scan_fault`): the text is malformed, or a double-quoted scalar
escapes what is no character.

Each function of the scanner has its triple, `Scan.Reads`, and those below take it from there. Where a function goes on
alike after several branches, the rest is bound to a name that the triples of its parts do not see; these functions are
taken apart by the rules for steps (`Reads.bind`, `Reads.ite`, `Reads.guard`).
-/

namespace NestedSite.Yaml

open Std.Do

set_option mvcgen.warning false

namespace Scan

/-- Wherever a step begins, its fault is a known one. -/
abbrev Reads {α : Type} (x : Scan α) : Prop := ⦃⌜True⌝⦄ x ⦃post⟨fun _ => ⌜True⌝, fun f => ⌜Known f⌝⟩⦄

theorem Reads.pure {α : Type} (a : α) : Reads (pure a : Scan α) := by mvcgen

theorem Reads.bind {α β : Type} {x : Scan α} {f : α → Scan β} (h : Reads x) (k : ∀ a, Reads (f a)) :
    Reads (x >>= f) := by
  mvcgen [h, k]

theorem Reads.ite {α : Type} {c : Prop} [Decidable c] {x y : Scan α} (h : Reads x) (k : Reads y) :
    Reads (if c then x else y) := by
  split
  · exact h
  · exact k

/-! ## Characters -/

theorem get_reads : Reads (get : Scan Progress) := by mvcgen

@[spec] theorem malformed_reads {α : Type} : Reads (malformed : Scan α) := by
  mvcgen [malformed]
  exact .inl rfl

@[spec] theorem peek_reads : Reads peek := by mvcgen [peek]

@[spec] theorem peekAt_reads (n : Nat) : Reads (peekAt n) := by mvcgen [peekAt]

@[spec] theorem advance_reads (n : Nat) : Reads (advance n) := by
  induction n with
  | zero => mvcgen [advance]
  | succ n ih => mvcgen [advance, ih]

@[spec] theorem take_reads (n : Nat) : Reads (take n) := by mvcgen [take]

@[spec] theorem takeWhile_reads (p : Char → Bool) : Reads (takeWhile p) := by mvcgen [takeWhile]

@[spec] theorem skipWhile_reads (p : Char → Bool) : Reads (skipWhile p) := by mvcgen [skipWhile]

@[spec] theorem lineBreak_reads : Reads lineBreak := by mvcgen [lineBreak]

@[spec] theorem bound_reads : Reads bound := by mvcgen [bound]

@[spec] theorem emit_reads (t : Token) : Reads (emit t) := by mvcgen [emit]

@[spec] theorem inFlow_reads : Reads inFlow := by mvcgen [inFlow]

@[spec] theorem allowKey_reads (b : Bool) : Reads (allowKey b) := by mvcgen [allowKey]

@[spec] theorem endLine_reads : Reads endLine := by mvcgen [endLine]

@[spec] theorem atSeparator_reads : Reads atSeparator := by mvcgen [atSeparator]

/-- A guard that finds the text malformed lets the rest of a step follow. -/
theorem Reads.guard {α : Type} {c : Prop} [Decidable c] {rest : Unit → Scan α} (k : Reads (rest ())) :
    Reads (if c then (do let u ← malformed; rest u) else rest ()) := by
  have hmalformed : Reads (do let u ← malformed; rest u) := by
    have hrest (u : Unit) : Reads (rest u) := k
    mvcgen [hrest]
  exact .ite hmalformed k

/-! ## Quoted scalars -/

@[spec] theorem quotedBreaks_reads (n : Nat) : Reads (quotedBreaks n) := by
  induction n with
  | zero => mvcgen [quotedBreaks]
  | succ n ih => mvcgen [quotedBreaks, ih]

@[spec] theorem quotedBlanks_reads : Reads quotedBlanks := by mvcgen [quotedBlanks]

@[spec] theorem escape_reads : Reads escape := by
  have hoverflow : Known .overflow := .inr .overflow
  have hbadValue : Known .badValue := .inr .badValue
  mvcgen [escape]

@[spec] theorem quotedWord_reads (double : Bool) (n : Nat) : Reads (quotedWord double n) := by
  induction n with
  | zero => mvcgen [quotedWord]
  | succ n ih => mvcgen [quotedWord, ih]

@[spec] theorem quotedRest_reads (double : Bool) (n : Nat) : Reads (quotedRest double n) := by
  induction n with
  | zero => mvcgen [quotedRest]
  | succ n ih => mvcgen [quotedRest, ih]

@[spec] theorem quotedScalar_reads (double : Bool) : Reads (quotedScalar double) := by mvcgen [quotedScalar]

/-! ## Plain scalars -/

@[spec] theorem plainBreaks_reads (n : Nat) : Reads (plainBreaks n) := by
  induction n with
  | zero => mvcgen [plainBreaks]
  | succ n ih => mvcgen [plainBreaks, ih]

@[spec] theorem plainBlanks_reads : Reads plainBlanks := by mvcgen [plainBlanks]

@[spec] theorem plainPieces_reads (flow : Bool) (n : Nat) (blanks : List Char) : Reads (plainPieces flow blanks n) := by
  induction n generalizing blanks with
  | zero => mvcgen [plainPieces]
  | succ n ih => mvcgen [plainPieces, ih]

@[spec] theorem plainScalar_reads : Reads plainScalar := by mvcgen [plainScalar]

/-! ## Block scalars -/

@[spec] theorem chomp?_reads : Reads chomp? := by mvcgen [chomp?]

@[spec] theorem increment?_reads : Reads increment? := by mvcgen [increment?]

@[spec] theorem blockHeader_reads : Reads blockHeader := by mvcgen [blockHeader]

@[spec] theorem leadingBreaks_reads (n widest : Nat) : Reads (leadingBreaks widest n) := by
  induction n generalizing widest with
  | zero => mvcgen [leadingBreaks]
  | succ n ih => mvcgen [leadingBreaks, ih]

@[spec] theorem indentTo_reads (indent n : Nat) : Reads (indentTo indent n) := by
  induction n with
  | zero => mvcgen [indentTo]
  | succ n ih => mvcgen [indentTo, ih]

@[spec] theorem blockBreaks_reads (indent n : Nat) : Reads (blockBreaks indent n) := by
  induction n with
  | zero => mvcgen [blockBreaks]
  | succ n ih => mvcgen [blockBreaks, ih]

@[spec] theorem blockLines_reads (folded : Bool) (indent n : Nat) (breaks : List Char) :
    Reads (blockLines folded indent breaks n) := by
  induction n generalizing breaks with
  | zero => mvcgen [blockLines]
  | succ n ih => mvcgen [blockLines, ih]

@[spec] theorem blockScalar_reads (folded : Bool) : Reads (blockScalar folded) := by mvcgen [blockScalar]

/-! ## Layout -/

@[spec] theorem dropKey_reads : Reads dropKey := by mvcgen [dropKey]

@[spec] theorem noteKey_reads : Reads noteKey := by mvcgen [noteKey]

@[spec] theorem dropStaleKeys_reads : Reads dropStaleKeys := by mvcgen [dropStaleKeys]

@[spec] theorem closeBlocksGo_reads (column : Int) (n : Nat) : Reads (closeBlocks.go column n) := by
  induction n with
  | zero => mvcgen [closeBlocks.go]
  | succ n ih => mvcgen [closeBlocks.go, ih]

@[spec] theorem closeBlocks_reads (column : Int) : Reads (closeBlocks column) := by mvcgen [closeBlocks]

@[spec] theorem openBlock_reads (column : Nat) : Reads (openBlock column) := by mvcgen [openBlock]

@[spec] theorem insertAt_reads (n : Nat) (t : Token) : Reads (insertAt n t) := by mvcgen [insertAt]

/-! ## Directives, tags and anchors -/

@[spec] theorem number_reads : Reads number := by mvcgen [number]

@[spec] theorem escapedBytes_reads (n : Nat) : Reads (escapedBytes n) := by
  induction n with
  | zero => mvcgen [escapedBytes]
  | succ n ih => mvcgen [escapedBytes, ih]

@[spec] theorem tagPieces_reads (n : Nat) : Reads (tagPieces n) := by
  induction n with
  | zero => mvcgen [tagPieces]
  | succ n ih => mvcgen [tagPieces, ih]

@[spec] theorem tagText_reads : Reads tagText := by mvcgen [tagText]

@[spec] theorem tagHandle_reads : Reads tagHandle := by mvcgen [tagHandle]

@[spec] theorem tag_reads : Reads tag := by
  have hend (t : Token) : Reads (do
      let token ← pure t
      if !isGap (← peek) then malformed
      return token) := by
    mvcgen
  unfold tag
  refine .bind get_reads fun p => .ite ?_ (.ite ?_ ?_)
  · refine .bind (advance_reads 2) fun _ => .bind tagText_reads fun suffix => .bind peek_reads fun _ => .guard ?_
    exact .bind (advance_reads 1) fun _ => hend (.tag none suffix)
  · exact .bind (advance_reads 1) fun _ => hend (.tag none "!")
  · have hsuffix (handle : String) : Reads (do
        let t := Token.tag (some handle) (← tagText)
        let token ← pure t
        if !isGap (← peek) then malformed
        return token) :=
      .bind tagText_reads fun suffix => hend (.tag (some handle) suffix)
    refine .ite (.bind tagHandle_reads hsuffix) ?_
    exact .bind (advance_reads 1) fun _ => .bind (.pure "!") hsuffix

@[spec] theorem anchorName_reads : Reads anchorName := by
  unfold anchorName
  refine .bind (advance_reads 1) fun _ => .bind (takeWhile_reads _) fun name => .guard ?_
  exact .bind peek_reads fun _ => .guard (.pure _)

@[spec] theorem directive_reads : Reads directive := by
  have hend (d : Directive) : Reads (do
      let d ← pure d
      endLine
      return d) := by
    mvcgen
  unfold directive
  refine .bind (advance_reads 1) fun _ => .bind (takeWhile_reads _) fun name => .bind peek_reads fun _ => .guard ?_
  refine .ite ?_ (.ite ?_ ?_)
  · refine .bind (skipWhile_reads _) fun _ => .bind number_reads fun major => .bind peek_reads fun _ => .guard ?_
    refine .bind (advance_reads 1) fun _ => .bind number_reads fun _ => .bind peek_reads fun _ => .guard ?_
    exact hend (.version major)
  · refine .bind (skipWhile_reads _) fun _ => .bind tagHandle_reads fun handle => .bind peek_reads fun _ => .guard ?_
    refine .bind (skipWhile_reads _) fun _ => .bind tagText_reads fun leading => .bind peek_reads fun _ => .guard ?_
    exact hend (.tagHandle handle leading)
  · exact .bind (skipWhile_reads _) fun _ => hend .other

/-! ## Tokens -/

@[spec] theorem leave_reads {t : Scan Token} (h : Reads t) : Reads (leave t) := by mvcgen [leave, h]

@[spec] theorem separator_reads (t : Token) : Reads (separator t) := by mvcgen [separator]

@[spec] theorem openFlow_reads (t : Token) : Reads (openFlow t) := by mvcgen [openFlow]

@[spec] theorem closeFlow_reads (t : Token) : Reads (closeFlow t) := by mvcgen [closeFlow]

@[spec] theorem lead_reads (opening mark : Token) (keyAfter : Bool) : Reads (lead opening mark keyAfter) := by
  mvcgen [lead]

@[spec] theorem value_reads : Reads value := by mvcgen [value]

@[spec] theorem content_reads {t : Scan Token} (h : Reads t) : Reads (content t) := by mvcgen [content, h]

@[spec] theorem block_reads (folded : Bool) : Reads (block folded) := by mvcgen [block]

@[spec] theorem fetch_reads (c : Char) : Reads (fetch c) := by
  have hdirective : Reads (return Token.directive (← directive) : Scan Token) := by mvcgen
  have halias : Reads (return Token.alias (← anchorName) : Scan Token) := by mvcgen
  have hanchor : Reads (return Token.anchor (← anchorName) : Scan Token) := by mvcgen
  have hcomma : Reads (do
      allowKey true
      dropKey
      advance 1
      emit .comma) := by
    mvcgen
  unfold fetch
  refine .bind get_reads fun p => ?_
  refine .ite (leave_reads hdirective) ?_
  refine .bind atSeparator_reads fun _ => .ite (leave_reads (separator_reads _)) ?_
  refine .bind atSeparator_reads fun _ => .ite (leave_reads (separator_reads _)) ?_
  refine .ite (openFlow_reads _) <| .ite (openFlow_reads _) <| .ite (closeFlow_reads _) <| .ite (closeFlow_reads _) ?_
  refine .ite hcomma <| .ite (lead_reads _ _ _) <| .ite (lead_reads _ _ _) <| .ite value_reads ?_
  refine .ite (content_reads halias) <| .ite (content_reads hanchor) <| .ite (content_reads tag_reads) ?_
  refine .ite (block_reads _) <| .ite (block_reads _) ?_
  refine .ite (content_reads (quotedScalar_reads _)) <| .ite (content_reads (quotedScalar_reads _)) ?_
  exact .ite (content_reads plainScalar_reads) malformed_reads

@[spec] theorem skipToToken_reads (n : Nat) : Reads (skipToToken n) := by
  induction n with
  | zero => mvcgen [skipToToken]
  | succ n ih => mvcgen [skipToToken, ih]

@[spec] theorem all_reads (n : Nat) : Reads (all n) := by
  induction n with
  | zero => mvcgen [all]
  | succ n ih => mvcgen [all, ih]

theorem Reads.fault {α : Type} {x : Scan α} (h : Reads x) {p p' : Progress} {f : Fault}
    (hrun : x.run.run p = (.error f, p')) : Known f := by
  have hp := h p trivial
  simp only [WP.wp, PredTrans.apply_pushExcept, PredTrans.apply_pushArg] at hp
  rw [hrun] at hp
  exact hp

end Scan

/-- What ends the tokens of a text is a known fault. -/
theorem Token.scan_fault (text : String) : ∀ f ∈ (Token.scan text).fault, Known f := by
  unfold Token.scan
  dsimp only
  split
  · rintro f ⟨⟩
    exact .inl rfl
  · split
    · nofun
    · next g p hrun =>
      rintro f ⟨⟩
      exact (Scan.all_reads _).fault hrun

end NestedSite.Yaml
