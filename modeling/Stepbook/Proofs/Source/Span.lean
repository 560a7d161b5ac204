import Mathlib.Data.List.Pairwise
import Stepbook.Proofs.Source.Bytes
import Stepbook.Proofs.Source.Call

/-! # Where findings stand

Each finding stands in the script from its keyword to its closing bracket, or to the end of its line
if nothing closes it. Its offsets lie between characters, and calls that are closed do not overlap.

* `Span`: where a call starts, and where it is closed.
* `OpensCall`, `Encloses`, `IsLine`: what the script holds at offsets.
* `IsDefinitionAt`, `IsSkippedAt`: a finding that says what stands at its span.
* `exists_located`: all findings from a place on with their spans.
* `extract_spans`: all definitions and all skipped calls of a script.
-/

namespace Stepbook.Source
set_option autoImplicit false

open Place

/-! ## Spans -/

/-- Where a call starts, in bytes, and where its closing bracket is, if there is one. -/
structure Span where
  start : Nat
  close? : Option Nat

/-- The first call starts before the second, and is closed before it starts if it is closed. -/
def Span.Precedes (first second : Span) : Prop :=
  first.start < second.start ∧ ∀ close ∈ first.close?, close < second.start

/-- Calls that are both closed have no byte in common. -/
def Span.Disjoint (first second : Span) : Prop :=
  ∀ close ∈ first.close?, ∀ other ∈ second.close?, close < second.start ∨ other < first.start

section
variable (source : String)

/-- From the offset on the script reads: a keyword of the kind, a gap and an opening bracket. -/
def OpensCall (start : Nat) (type : StepType) : Prop :=
  ∃ (head : Head) (rest : List Char), head.type = type ∧
    slice? source start source.utf8ByteSize = some (String.ofList (head.text ++ '(' :: rest))

/-- The snippet is the text from one offset to the closing bracket at the other. -/
def Encloses (start close : Nat) (snippet : String) : Prop :=
  start ≤ close ∧ slice? source start (close + 1) = some snippet ∧
    slice? source close (close + 1) ∈ [some ")", some "]", some "\x7d"]

/-- The snippet is the text from the offset to the end of its line. -/
def IsLine (start : Nat) (snippet : String) : Prop :=
  ∃ stop, slice? source start stop = some snippet ∧ '\n' ∉ snippet.toList ∧
    (stop = source.utf8ByteSize ∨ slice? source stop (stop + 1) = some "\n")

/-- The number of the line of an offset, from 1. -/
def IsLineOf (start line : Nat) : Prop :=
  ∃ earlier, slice? source 0 start = some earlier ∧ line = earlier.toList.count '\n' + 1

def IsDefinitionAt (span : Span) (found : Definition) : Prop :=
  OpensCall source span.start found.type ∧
    ∃ close, span.close? = some close ∧ Encloses source span.start close found.snippet

def IsSkippedAt (span : Span) (call : SkippedCall) : Prop :=
  OpensCall source span.start call.type ∧ call.offset = span.start ∧
    IsLineOf source call.offset call.line ∧
    match call.fault with
    | .ambiguousPattern | .unterminatedPattern =>
      ∃ close, span.close? = some close ∧ Encloses source span.start close call.snippet
    | .unterminatedCall => span.close? = none ∧ IsLine source span.start call.snippet

def IsFindingAt (span : Span) : Finding → Prop
  | .definition found => IsDefinitionAt source span found
  | .skipped call => IsSkippedAt source span call

end

/-! ## Offsets of places -/

section
variable {source : String} {before rest : List Char}

theorem offset_advance (before rest : List Char) (count : Nat) :
    (advance ⟨before, rest⟩ count).offset =
      (⟨before, rest⟩ : Place).offset + Text.byteLength (rest.take count) := by
  rw [advance_eq, offset, offset, Text.byteLength_append, Text.byteLength_reverse, Nat.add_comm]

theorem slice?_place {text : List Char} (h : source.toList = before.reverse ++ (text ++ rest)) :
    slice? source (Text.byteLength before) (Text.byteLength before + Text.byteLength text) =
      some (String.ofList text) := by
  have hslice := slice?_of_toList h
  rwa [Text.byteLength_reverse] at hslice

theorem isLineOf_place (h : source.toList = before.reverse ++ rest) :
    IsLineOf source (Text.byteLength before) (before.count '\n' + 1) := by
  have hsource : source.toList = [] ++ (before.reverse ++ rest) := h
  have hslice := slice?_of_toList hsource
  rw [Text.byteLength_reverse, Text.byteLength_nil, Nat.zero_add] at hslice
  refine ⟨_, hslice, ?_⟩
  rw [String.toList_ofList, List.count_reverse]

theorem opensCall_place {head : Head} {arguments : List Char}
    (h : source.toList = before.reverse ++ (head.text ++ '(' :: arguments)) :
    OpensCall source (Text.byteLength before) head.type := by
  refine ⟨head, arguments, rfl, ?_⟩
  have hsource : source.toList = before.reverse ++ (head.text ++ '(' :: arguments ++ []) := by
    rw [h, List.append_nil]
  have hsize : source.utf8ByteSize =
      Text.byteLength before + Text.byteLength (head.text ++ '(' :: arguments) := by
    rw [← Text.byteLength_toList, h, Text.byteLength_append, Text.byteLength_reverse]
  rw [hsize]
  exact slice?_place hsource

theorem isLine_place (h : source.toList = before.reverse ++ rest) :
    IsLine source (Text.byteLength before) (String.ofList (rest.take (lineLength rest))) := by
  obtain ⟨line, after, rfl, hline, hlength, hafter⟩ := exists_line rest
  have hslice := slice?_place h
  rw [hlength, List.take_left]
  refine ⟨_, hslice, ?_, ?_⟩
  · rw [String.toList_ofList]
    exact hline
  · rcases hafter with rfl | ⟨more, rfl⟩
    · refine .inl ?_
      rw [← Text.byteLength_toList, h, List.append_nil, Text.byteLength_append,
        Text.byteLength_reverse]
    · refine .inr ?_
      have hbreak : source.toList = (line.reverse ++ before).reverse ++ (['\n'] ++ more) := by
        rw [h]
        simp
      have hone := slice?_place hbreak
      rw [Text.byteLength_append, Text.byteLength_reverse, Nat.add_comm (Text.byteLength line)]
        at hone
      exact hone

/-- A call stands between its offset and its closing bracket. -/
theorem encloses_place {call : Call}
    (h : source.toList = before.reverse ++ (call.text ++ rest)) :
    ∃ close, Text.byteLength before + Text.byteLength call.text = close + 1 ∧
      Encloses source (Text.byteLength before) close (String.ofList call.text) := by
  obtain ⟨inside, last, hbody, hbracket⟩ := call.closes.exists_last
  obtain ⟨front, htext⟩ : ∃ front, call.text = front ++ [last] := by
    refine ⟨call.head.text ++ '(' :: (call.inside.flatMap Gap.text ++ inside), ?_⟩
    rw [Call.text, hbody]
    simp
  have hlast : source.toList = (front.reverse ++ before).reverse ++ ([last] ++ rest) := by
    rw [h, htext]
    simp
  have hsize : Text.byteLength [last] = 1 := by
    rcases hbracket with rfl | rfl | rfl <;> rfl
  have hclose := slice?_place hlast
  rw [hsize, Text.byteLength_append, Text.byteLength_reverse,
    Nat.add_comm (Text.byteLength front)] at hclose
  have hwhole : Text.byteLength before + Text.byteLength call.text =
      Text.byteLength before + Text.byteLength front + 1 := by
    rw [htext, Text.byteLength_append, hsize, Nat.add_assoc]
  refine ⟨_, hwhole, Nat.le_add_right _ _, ?_, ?_⟩
  · rw [← hwhole]
    exact slice?_place h
  · rw [hclose]
    rcases hbracket with rfl | rfl | rfl <;> decide

end

/-! ## Findings with their spans -/

section
variable {source : String} {before rest : List Char}

theorem isFindingAt_unclosed {head : Head} {arguments : List Char}
    (h : source.toList = before.reverse ++ (head.text ++ '(' :: arguments)) :
    IsFindingAt source ⟨Text.byteLength before, none⟩
      (unclosedFinding head ⟨before, head.text ++ '(' :: arguments⟩) :=
  ⟨opensCall_place h, rfl, isLineOf_place h, rfl, isLine_place h⟩

theorem isFindingAt_call {call : Call}
    (h : source.toList = before.reverse ++ (call.text ++ rest)) {close : Nat}
    (hencloses : Encloses source (Text.byteLength before) close (String.ofList call.text)) :
    IsFindingAt source ⟨Text.byteLength before, some close⟩
      (call.finding (Text.byteLength before) (before.count '\n' + 1)
        (literalPattern (call.body ++ rest))) := by
  have hopens : OpensCall source (Text.byteLength before) call.head.type := by
    rw [call.text_append] at h
    exact opensCall_place h
  cases hpattern : literalPattern (call.body ++ rest) with
  | ok pattern => exact ⟨hopens, close, rfl, hencloses⟩
  | error fault =>
    cases fault with
    | ambiguousPattern | unterminatedPattern =>
      exact ⟨hopens, rfl, isLineOf_place h, close, rfl, hencloses⟩
    | unterminatedCall => exact absurd hpattern (literalPattern_ne_unterminatedCall _)

end

/-- What is found at a place stands from this place on, and the search goes on behind it. -/
theorem exists_span {source : String} {place : Place} (h : source.toList = place.source) :
    place.step.1 = [] ∨ ∃ (span : Span) (finding : Finding), place.step.1 = [finding] ∧
      IsFindingAt source span finding ∧ span.start = place.offset ∧
      span.start < (place.advance place.step.2).offset ∧
      ∀ close ∈ span.close?, close < (place.advance place.step.2).offset := by
  obtain ⟨before, rest⟩ := place
  rcases step_cases ⟨before, rest⟩ with
    hnone | ⟨head, arguments, htext, hunclosed⟩ | ⟨call, more, htext, hcall⟩
  · exact .inl hnone
  · refine .inr ⟨⟨Text.byteLength before, none⟩, unclosedFinding head ⟨before, rest⟩, ?_⟩
    dsimp only at htext
    subst htext
    have hbracket : (head.text ++ '(' :: arguments).take (head.text.length + 1) =
        head.text ++ ['('] := by
      rw [List.take_length_add_append]
      rfl
    have hpassed : (advance ⟨before, head.text ++ '(' :: arguments⟩ (head.text.length + 1)).offset =
        Text.byteLength before + (Text.byteLength head.text + 1) := by
      rw [offset_advance, hbracket, Text.byteLength_append]
      rfl
    rw [hunclosed]
    refine ⟨rfl, isFindingAt_unclosed h, rfl, ?_, nofun⟩
    dsimp only
    omega
  · dsimp only at htext
    subst htext
    obtain ⟨close, hclose, hencloses⟩ := encloses_place h
    have hpassed : (advance ⟨before, call.text ++ more⟩ call.text.length).offset = close + 1 := by
      rw [offset_advance, List.take_left]
      exact hclose
    rw [hcall]
    refine .inr ⟨⟨Text.byteLength before, some close⟩, _, rfl, isFindingAt_call h hencloses, rfl,
      ?_, fun other hother => ?_⟩
    · dsimp only
      rw [hpassed]
      exact Nat.lt_succ_of_le hencloses.1
    · rw [Option.mem_some_iff] at hother
      rw [hpassed, ← hother]
      exact Nat.lt_succ_self close

/-- All findings from a place on can be located: each stands where it says, from the place on, and
before the next. -/
theorem exists_located {source : String} (place : Place) (h : source.toList = place.source) :
    ∃ located : List (Span × Finding), located.map Prod.snd = place.findings ∧
      (∀ entry ∈ located, IsFindingAt source entry.1 entry.2 ∧ place.offset ≤ entry.1.start) ∧
      located.Pairwise fun first second => first.1.Precedes second.1 := by
  fun_induction findings place with
  | case1 place hend => exact ⟨[], rfl, by simp, .nil⟩
  | case2 place hrest ih =>
    obtain ⟨later, hlater, hstand, hordered⟩ := ih (by rw [source_advance, h])
    rcases exists_span h with hnone | ⟨span, finding, hone, hfinding, hstart, hnext, hclose⟩
    · refine ⟨later, by rw [hlater, hnone, List.nil_append], fun entry hentry => ?_, hordered⟩
      obtain ⟨hfinding, hstart⟩ := hstand entry hentry
      have hpassed : place.offset ≤ (place.advance place.step.2).offset := by
        rw [offset_advance]
        exact Nat.le_add_right _ _
      exact ⟨hfinding, Nat.le_trans hpassed hstart⟩
    · refine ⟨(span, finding) :: later, by rw [List.map_cons, hlater, hone]; rfl, ?_, ?_⟩
      · intro entry hentry
        rcases List.mem_cons.1 hentry with rfl | hentry
        · exact ⟨hfinding, hstart.ge⟩
        · have hlate := (hstand entry hentry).2
          exact ⟨(hstand entry hentry).1, by omega⟩
      · refine List.pairwise_cons.2 ⟨fun entry hentry => ?_, hordered⟩
        have hlate := (hstand entry hentry).2
        exact ⟨Nat.lt_of_lt_of_le hnext hlate,
          fun close hmem => Nat.lt_of_lt_of_le (hclose close hmem) hlate⟩

/-! ## Scripts -/

/-- The findings of one kind, with their spans. -/
def collect {α : Type} (kind : Finding → Option α) (located : List (Span × Finding)) :
    List (Span × α) :=
  located.filterMap fun entry => (kind entry.2).map (entry.1, ·)

section
variable {α : Type} {kind : Finding → Option α} {located : List (Span × Finding)}

theorem map_snd_collect :
    (collect kind located).map Prod.snd = (located.map Prod.snd).filterMap kind := by
  rw [collect, List.map_filterMap, List.filterMap_map]
  apply List.filterMap_congr
  intro entry _
  rw [Option.map_map]
  exact Option.map_id' ..

theorem mem_collect {entry : Span × α} :
    entry ∈ collect kind located ↔
      ∃ finding, (entry.1, finding) ∈ located ∧ kind finding = some entry.2 := by
  rw [collect, List.mem_filterMap]
  constructor
  · rintro ⟨⟨span, finding⟩, hmem, hentry⟩
    obtain ⟨value, hvalue, rfl⟩ := Option.map_eq_some_iff.1 hentry
    exact ⟨finding, hmem, hvalue⟩
  · rintro ⟨finding, hmem, hvalue⟩
    exact ⟨(entry.1, finding), hmem, Option.map_eq_some_iff.2 ⟨entry.2, hvalue, rfl⟩⟩

section
variable (hordered : located.Pairwise fun first second => first.1.Precedes second.1)
include hordered

theorem pairwise_collect :
    (collect kind located).Pairwise fun first second => first.1.Precedes second.1 := by
  refine hordered.filterMap _ ?_
  intro first second hprecedes entry hentry other hother
  obtain ⟨value, -, rfl⟩ := Option.map_eq_some_iff.1 hentry
  obtain ⟨value, -, rfl⟩ := Option.map_eq_some_iff.1 hother
  exact hprecedes

/-- Different findings do not overlap, whichever comes first. -/
theorem disjoint_of_mem {first second : Span × Finding} (hfirst : first ∈ located)
    (hsecond : second ∈ located) (hne : first ≠ second) : first.1.Disjoint second.1 := by
  induction located with
  | nil => cases hfirst
  | cons entry located ih =>
    obtain ⟨hprecedes, hlater⟩ := List.pairwise_cons.1 hordered
    rcases List.mem_cons.1 hfirst with rfl | hmem
    · rcases List.mem_cons.1 hsecond with rfl | hother
      · exact absurd rfl hne
      · exact fun close hclose _ _ => .inl ((hprecedes second hother).2 close hclose)
    · rcases List.mem_cons.1 hsecond with rfl | hother
      · exact fun _ _ close hclose => .inr ((hprecedes first hmem).2 close hclose)
      · exact ih hlater hmem hother

end

end

/-- Every definition and every call that is skipped stands in the script where it says. The
definitions come in the order of their starts, and so do the skipped calls; calls that are closed do
not overlap. The offsets lie between characters, so that a search among the bytes finds the same
whatever a slice would fall back to. -/
theorem extract_spans (source : String) :
    (∀ fallback, Bytes.extract fallback source = extract source) ∧
    ∃ (found : List (Span × Definition)) (skipped : List (Span × SkippedCall)),
      found.map Prod.snd = (extract source).definitions ∧
      skipped.map Prod.snd = (extract source).skipped ∧
      (∀ entry ∈ found, IsDefinitionAt source entry.1 entry.2) ∧
      (∀ entry ∈ skipped, IsSkippedAt source entry.1 entry.2) ∧
      (found.Pairwise fun first second => first.1.start < second.1.start) ∧
      (skipped.Pairwise fun first second => first.1.start < second.1.start) ∧
      (found.map Prod.fst ++ skipped.map Prod.fst).Pairwise Span.Disjoint := by
  refine ⟨fun fallback => bytes_extract_eq fallback, ?_⟩
  obtain ⟨located, hlocated, hstand, hordered⟩ := exists_located (start source.toList) rfl
  refine ⟨collect Finding.definition? located, collect Finding.skipped? located, ?_, ?_, ?_, ?_,
    ?_, ?_, ?_⟩
  · rw [map_snd_collect, hlocated]
    rfl
  · rw [map_snd_collect, hlocated]
    rfl
  · intro entry hentry
    obtain ⟨finding, hmem, hkind⟩ := mem_collect.1 hentry
    have hfinding := (hstand _ hmem).1
    rwa [Finding.definition?_eq_some_iff.1 hkind] at hfinding
  · intro entry hentry
    obtain ⟨finding, hmem, hkind⟩ := mem_collect.1 hentry
    have hfinding := (hstand _ hmem).1
    rwa [Finding.skipped?_eq_some_iff.1 hkind] at hfinding
  · exact (pairwise_collect hordered).imp And.left
  · exact (pairwise_collect hordered).imp And.left
  · have hclosed : ∀ {first second : Span}, first.Precedes second → first.Disjoint second :=
      fun hprecedes close hclose _ _ => .inl (hprecedes.2 close hclose)
    rw [List.pairwise_append, List.pairwise_map, List.pairwise_map]
    refine ⟨(pairwise_collect hordered).imp hclosed, (pairwise_collect hordered).imp hclosed, ?_⟩
    intro first hfirst second hsecond
    obtain ⟨found, hfound, rfl⟩ := List.mem_map.1 hfirst
    obtain ⟨call, hcall, rfl⟩ := List.mem_map.1 hsecond
    obtain ⟨finding, hmem, hkind⟩ := mem_collect.1 hfound
    obtain ⟨other, hother, hskipped⟩ := mem_collect.1 hcall
    rw [Finding.definition?_eq_some_iff.1 hkind] at hmem
    rw [Finding.skipped?_eq_some_iff.1 hskipped] at hother
    exact disjoint_of_mem hordered hmem hother (by simp)

end Stepbook.Source
