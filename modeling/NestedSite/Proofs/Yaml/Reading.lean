import Mathlib
import NestedSite.Proofs.Yaml.Scanning
import NestedSite.Yaml.Node

/-!
# The faults of reading nodes

If a text has no document, its fault is a known one (`Document.ofText_fault`): that of its tokens, which is met only
when they run out, that of nodes that do not fit together, or that of nodes too deep inside one another.

The functions of the reader call one another with less fuel, so that their triples are proved together, each from those
of the functions it calls.
-/

namespace NestedSite.Yaml

open Std.Do

set_option mvcgen.warning false

namespace Read

/-- Wherever a step begins, its fault is a known one, if that of the tokens is. -/
abbrev Reads {α : Type} (x : Read α) : Prop :=
  ⦃fun r => ⌜∀ f ∈ r.fault, Known f⌝⦄ x ⦃post⟨fun _ r => ⌜∀ f ∈ r.fault, Known f⌝, fun f => ⌜Known f⌝⟩⦄

theorem throw_reads {α : Type} {f : Fault} (h : Known f) : Reads (throw f : Read α) := fun _ _ => h

@[spec] theorem malformed_reads {α : Type} : Reads (malformed : Read α) := throw_reads (.inl rfl)

theorem tooDeep_reads {α : Type} : Reads (throw .tooDeep : Read α) := throw_reads (.inr .tooDeep)

@[spec] theorem peek_reads : Reads peek := by
  intro r hr
  obtain ⟨rest, fault, handles, nodes, anchors⟩ := r
  cases rest with
  | cons t rest => exact hr
  | nil =>
    cases fault with
    | none => exact hr
    | some f => exact hr f rfl

@[spec] theorem skip_reads : Reads skip := by mvcgen [skip]

@[spec] theorem accept_reads (t : Token) : Reads (accept t) := by mvcgen [accept]

@[spec] theorem expect_reads (t : Token) : Reads (expect t) := by mvcgen [expect]

@[spec] theorem isNext_reads (ts : List Token) : Reads (isNext ts) := by mvcgen [isNext]

@[spec] theorem newNode_reads (tag : Tag) (content : Content) : Reads (newNode tag content) := by mvcgen [newNode]

@[spec] theorem emptyNode_reads : Reads emptyNode := by mvcgen [emptyNode]

@[spec] theorem setContent_reads (n : Nat) (content : Content) : Reads (setContent n content) := by mvcgen [setContent]

@[spec] theorem fullTag_reads (handle : Option String) (suffix : String) : Reads (fullTag handle suffix) := by
  mvcgen [fullTag]

@[spec] theorem properties_reads : Reads properties := by mvcgen [properties]

@[spec] theorem placed_reads (p : Properties) (tag : Tag) (content : Content) : Reads (placed p tag content) := by
  mvcgen [placed]

@[spec] theorem emptyWith_reads (p : Properties) : Reads (node.emptyWith p) := by mvcgen [node.emptyWith]

theorem Reads.bind {α β : Type} {x : Read α} {f : α → Read β} (h : Reads x) (k : ∀ a, Reads (f a)) :
    Reads (x >>= f) := by
  mvcgen [h, k]

theorem Reads.ite {α : Type} {c : Prop} [Decidable c] {x y : Read α} (h : Reads x) (k : Reads y) :
    Reads (if c then x else y) := by
  split
  · exact h
  · exact k

mutual

theorem node_reads : ∀ (block flush : Bool) (n : Nat), Reads (node block flush n)
  | _, _, 0 => tooDeep_reads
  | block, flush, n + 1 => by
    have hflushItems := flushItems_reads n
    have hflowItems := flowItems_reads true n
    have hflowEntries := flowEntries_reads true n
    have hblockItems := blockItems_reads n
    have hblockEntries := blockEntries_reads n
    mvcgen [node, hflushItems, hflowItems, hflowEntries, hblockItems, hblockEntries]

theorem nodeUnless_reads : ∀ (ends : List Token) (block flush : Bool) (n : Nat), Reads (nodeUnless ends block flush n)
  | _, _, _, 0 => tooDeep_reads
  | ends, block, flush, n + 1 => by
    have hnode := node_reads block flush n
    mvcgen [nodeUnless, hnode]

theorem blockItems_reads : ∀ n : Nat, Reads (blockItems n)
  | 0 => tooDeep_reads
  | n + 1 => by
    have hfirst := nodeUnless_reads [.item, .blockEnd] true false n
    have hrest := blockItems_reads n
    mvcgen [blockItems, hfirst, hrest]

theorem flushItems_reads : ∀ n : Nat, Reads (flushItems n)
  | 0 => tooDeep_reads
  | n + 1 => by
    have hfirst := nodeUnless_reads [.item, .key, .value, .blockEnd] true false n
    have hrest := flushItems_reads n
    mvcgen [flushItems, hfirst, hrest]

theorem blockEntries_reads : ∀ n : Nat, Reads (blockEntries n)
  | 0 => tooDeep_reads
  | n + 1 => by
    have hpart := nodeUnless_reads [.key, .value, .blockEnd] true true n
    have hrest := blockEntries_reads n
    mvcgen [blockEntries, hpart, hrest]

theorem flowItems_reads : ∀ (first : Bool) (n : Nat), Reads (flowItems first n)
  | _, 0 => tooDeep_reads
  | first, n + 1 => by
    have hkey := nodeUnless_reads [.value, .comma, .flowSequenceEnd] false false n
    have hvalue := nodeUnless_reads [.comma, .flowSequenceEnd] false false n
    have hitem := node_reads false false n
    have hrest := flowItems_reads false n
    mvcgen [flowItems, hkey, hvalue, hitem, hrest]

theorem flowEntries_reads : ∀ (first : Bool) (n : Nat), Reads (flowEntries first n)
  | _, 0 => tooDeep_reads
  | first, n + 1 => by
    have hkey := nodeUnless_reads [.value, .comma, .flowMappingEnd] false false n
    have hvalue := nodeUnless_reads [.comma, .flowMappingEnd] false false n
    have hlone := node_reads false false n
    have hrest := flowEntries_reads false n
    mvcgen [flowEntries, hkey, hvalue, hlone, hrest]

end

theorem directives_reads (version : Bool) (handles : List (String × String)) (n : Nat) :
    Reads (directives version handles n) := by
  induction n generalizing version handles with
  | zero => mvcgen [directives]
  | succ n ih => mvcgen [directives, ih]

theorem skipAll_reads (t : Token) (n : Nat) : Reads (skipAll t n) := by
  induction n with
  | zero => mvcgen [skipAll]
  | succ n ih => mvcgen [skipAll, ih]

theorem document_reads : Reads document := by
  unfold document
  refine .bind (by mvcgen) fun r => .bind peek_reads fun first => ?_
  split
  · mvcgen
  · extract_lets isExplicit next
    have hnext (root : Nat) : Reads (next root) := by mvcgen [next, skipAll_reads]
    clear_value next
    refine .ite ?_ ?_
    · mvcgen [directives_reads, node_reads, hnext]
    · mvcgen [node_reads, hnext]

theorem Reads.fault {α : Type} {x : Read α} (h : Reads x) {r : Reading} (hr : ∀ f ∈ r.fault, Known f) {f : Fault}
    (hrun : x.run r = .error f) : Known f := by
  have hp := h r hr
  simp only [WP.wp, PredTrans.apply_pushArg, hrun] at hp
  exact hp

end Read

/-- The fault of a text that has no document is a known one. -/
theorem Document.ofText_fault {text : String} {f : Fault} (h : Document.ofText text = .error f) : Known f := by
  unfold Document.ofText at h
  dsimp only at h
  cases hrun : Read.document.run { rest := (Token.scan text).tokens, fault := (Token.scan text).fault } with
  | error g =>
    rw [hrun] at h
    cases h
    exact Read.document_reads.fault (Token.scan_fault text) hrun
  | ok r =>
    rw [hrun] at h
    cases h

/-- A document is known from its nodes and its root. -/
theorem Document.ofText_eq {text : String} {nodes : List Node} {root : Nat}
    (h : (ofText text).toOption.map (Option.map fun d => (d.nodes.toList, d.root)) = some (some (nodes, root))) :
    ofText text = .ok (some ⟨nodes.toArray, root⟩) := by
  cases hdocument : ofText text with
  | error f =>
    rw [hdocument] at h
    cases h
  | ok document =>
    rw [hdocument] at h
    obtain ⟨⟨found, top⟩, rfl, hfields⟩ := Option.map_eq_some_iff.1 (Option.some.inj h)
    cases hfields
    rfl

/-- A configuration with one rule, by which the index gets the path `./home`. -/
def homeRule : String := "exclude: []\nrename:\n- pattern: ^index$\n  replacement: ./home\n"

/-- Its document: every scalar of it is plain and has no form but that of a text. -/
theorem Document.ofText_homeRule : ofText homeRule = .ok (some ⟨[⟨.mapping, .mapping [(1, 2), (3, 4)]⟩,
    ⟨.text, .scalar "exclude"⟩, ⟨.sequence, .sequence []⟩, ⟨.text, .scalar "rename"⟩, ⟨.sequence, .sequence [5]⟩,
    ⟨.mapping, .mapping [(6, 7), (8, 9)]⟩, ⟨.text, .scalar "pattern"⟩, ⟨.text, .scalar "^index$"⟩,
    ⟨.text, .scalar "replacement"⟩, ⟨.text, .scalar "./home"⟩].toArray, 0⟩) :=
  ofText_eq (by decide +kernel)

end NestedSite.Yaml
