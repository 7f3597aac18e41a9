/-
# Written values are read back

A JSON text is a document, and its reading follows its writing: scalars first, then lists
and mappings from their parts. So every value that JSON represents is read back, with its
keys in their order, provided that its keys are short enough to be found and its integers
have few enough digits. It is read back as it was exactly if in addition all its
floating-point numbers are written with a point.
-/

import DataContract.Proofs.Yaml.Making
import DataContract.Schema.Loading

set_option autoImplicit false

namespace DataContract

namespace Yaml

open NodeReader (allOutcomes entryOutcome textNode ReadsAsElement ReadsAsNode)
open Text (isPrintable)

/-! ### Outcomes that depend on a condition -/

/-- An outcome is a success, and a good one, exactly if a condition holds. -/
inductive SucceedsIff {ε α : Type} (fits : Prop) (good : α → Prop) : Except ε α → Prop
  | ok {x : α} : fits → good x → SucceedsIff fits good (.ok x)
  | error {e : ε} : ¬fits → SucceedsIff fits good (.error e)

namespace SucceedsIff

variable {ε α β : Type} {outcome : Except ε α} {fits : Prop} {good : α → Prop}

theorem map (succeeds : SucceedsIff fits good outcome) {f : α → β} {better : β → Prop}
    (improves : ∀ x, good x → better (f x)) : SucceedsIff fits better (outcome.map f) := by
  cases succeeds with
  | ok holds isGood => exact .ok holds (improves _ isGood)
  | error fails => exact .error fails

theorem mapError (succeeds : SucceedsIff fits good outcome) {ε' : Type} (f : ε → ε') :
    SucceedsIff fits good (outcome.mapError f) := by
  cases succeeds with
  | ok holds isGood => exact .ok holds isGood
  | error fails => exact .error fails

theorem congr (succeeds : SucceedsIff fits good outcome) {same : Prop} (iff : fits ↔ same) :
    SucceedsIff same good outcome := propext iff ▸ succeeds

theorem exists_error (succeeds : SucceedsIff fits good outcome) (fails : ¬fits) :
    ∃ e, outcome = .error e := by
  cases succeeds with
  | ok holds => exact absurd holds fails
  | error => exact ⟨_, rfl⟩

theorem eq_ok {x : α} (succeeds : SucceedsIff fits (· = x) outcome) (holds : fits) :
    outcome = .ok x := by
  cases succeeds with
  | ok _ isGood => rw [isGood]
  | error fails => exact absurd holds fails

theorem of_eq_ok {x : α} (succeeds : SucceedsIff fits good outcome) (equal : outcome = .ok x) :
    fits ∧ good x := by
  cases succeeds with
  | ok holds isGood =>
      cases equal
      exact ⟨holds, isGood⟩
  | error => cases equal

end SucceedsIff

/-- All outcomes are successes exactly if all conditions hold. -/
theorem succeedsIff_allOutcomes {α β : Type} {outcomes : List (Except Error α)} {vs : List β}
    {fits : β → Prop} {good : α → β → Prop}
    (succeeds : List.Forall₂ (fun o v => SucceedsIff (fits v) (good · v) o) outcomes vs) :
    SucceedsIff (∀ v ∈ vs, fits v) (fun xs => List.Forall₂ good xs vs) (allOutcomes outcomes) := by
  induction succeeds with
  | nil => exact .ok (fun v mem => absurd mem List.not_mem_nil) .nil
  | @cons outcome v outcomes vs first _ ih =>
      rw [allOutcomes]
      cases first with
      | error fails => exact .error fun all => fails (List.forall_mem_cons.1 all).1
      | ok holds isGood =>
          generalize allOutcomes outcomes = more at ih ⊢
          cases ih with
          | error fails => exact .error fun all => fails (List.forall_mem_cons.1 all).2
          | ok others areGood =>
              exact .ok (List.forall_mem_cons.2 ⟨holds, others⟩) (.cons isGood areGood)

/-! ### The characters of JSON texts -/

/-- The characters that JSON texts are written with, if all texts in them are printable. -/
def IsWritten (cs : List Char) : Prop := ∀ c ∈ cs, c = '\n' ∨ isPrintable c = true

theorem isWritten_nil : IsWritten [] := fun _ mem => absurd mem List.not_mem_nil

theorem IsWritten.cons {c : Char} {cs : List Char} (printable : isPrintable c = true)
    (rest : IsWritten cs) : IsWritten (c :: cs) := List.forall_mem_cons.2 ⟨.inr printable, rest⟩

theorem IsWritten.append {front back : List Char} (hf : IsWritten front) (hb : IsWritten back) :
    IsWritten (front ++ back) := fun c mem => (List.mem_append.1 mem).elim (hf c) (hb c)

/-- The beginning of a line. -/
def line (depth : Nat) : List Char := '\n' :: List.replicate (2 * depth) ' '

theorem isGap_line (depth : Nat) : IsGap (line depth) := .inr ⟨2 * depth, rfl⟩

theorem IsGap.isWritten {gap : List Char} (blank : IsGap gap) : IsWritten gap := by
  rcases blank with rfl | ⟨spaces, rfl⟩
  · exact isWritten_nil
  · refine List.forall_mem_cons.2 ⟨.inl rfl, fun c mem => .inr ?_⟩
    rw [List.eq_of_mem_replicate mem]
    decide

theorem isWritten_scalar {cs : List Char} (scalar : IsScalarText cs) : IsWritten cs :=
  fun c mem => .inr (isPrintable_of_isScalarChar (scalar c mem))

theorem isWritten_quoted {s : String} (printable : IsPrintableText s) :
    IsWritten (Json.quoted s).toList := by
  have body : IsWritten (s.toList.flatMap Json.quotedChar) := fun d mem => by
    obtain ⟨c, own, inside⟩ := List.mem_flatMap.1 mem
    rw [quotedChar_of_isPrintable (printable c own)] at inside
    split at inside
    · rcases List.mem_pair.1 inside with rfl | rfl
      · exact .inr (by decide)
      · exact .inr (printable d own)
    · exact .inr (List.mem_singleton.1 inside ▸ printable c own)
  rw [Json.quoted, String.toList_ofList]
  exact ((isWritten_nil.cons (by decide)).append body |>.append (isWritten_nil.cons (by decide)))

/-- Parts between brackets. -/
theorem isWritten_bracketed {left right : Char} (depth : Nat) {parts : List (List Char)}
    (hl : isPrintable left = true) (hr : isPrintable right = true)
    (inside : ∀ part ∈ parts, IsWritten part) :
    IsWritten (left :: (between (line (depth + 1)) (line depth) parts ++ [right])) := by
  apply IsWritten.cons hl
  apply IsWritten.append _ (isWritten_nil.cons hr)
  cases parts with
  | nil => exact isWritten_nil
  | cons part rest =>
      obtain ⟨first, others⟩ := List.forall_mem_cons.1 inside
      have more : IsWritten (moreParts (line (depth + 1)) rest) := fun c mem => by
        obtain ⟨other, own, within⟩ := List.mem_flatMap.1 mem
        exact ((isGap_line _).isWritten.append (others other own)).cons (by decide) c within
      exact (isGap_line _).isWritten.append (first.append (more.append (isGap_line _).isWritten))

/-! ### Texts that are read as values -/

/-- A text is a way to write a value: it is read as a node that makes what the value is
read back as, if the keys in the value are short enough. -/
structure IsRendering (cs : List Char) (v : Value) : Prop where
  written : IsWritten cs
  read : ∃ tokens outcome, ReadsAsValue cs tokens ∧ ReadsAsNode tokens outcome ∧
    SucceedsIff (v.Everywhere KeysFit) (·.MakesValue v) outcome

theorem isRendering_plain {s : String} {v : Value} (plain : IsPlainText s.toList)
    (makes : (Node.scalar (Tag.ofPlain s) s).MakesValue v) (keys : v.Everywhere KeysFit) :
    IsRendering s.toList v where
  written := isWritten_scalar plain.chars
  read := by
    have reads := readsAsValue_plain plain
    rw [String.ofList_toList] at reads
    exact ⟨_, _, reads, NodeReader.readsAsNode_scalar s true, .ok keys makes⟩

theorem isRendering_quoted {s : String} (printable : IsPrintableText s) :
    IsRendering (Json.quoted s).toList (.text s) where
  written := isWritten_quoted printable
  read := by
    have makes : (Node.scalar (NodeReader.scalarTag none s false) s).MakesValue (.text s) :=
      makesValue_scalar rfl (Value.everywhere_of_parts rfl trivial)
    exact ⟨_, _, readsAsValue_quoted printable, NodeReader.readsAsNode_scalar s false,
      .ok (Value.everywhere_of_parts rfl trivial) makes⟩

theorem exists_forall₂ {α β γ δ : Type} {R : α → β → Prop} {S : β → γ → Prop} {T : γ → δ → Prop}
    {front : List α} {back : List δ}
    (related : List.Forall₂ (fun a d => ∃ b c, R a b ∧ S b c ∧ T c d) front back) :
    ∃ bs cs, List.Forall₂ R front bs ∧ List.Forall₂ S bs cs ∧ List.Forall₂ T cs back := by
  induction related with
  | nil => exact ⟨[], [], .nil, .nil, .nil⟩
  | cons first _ ih =>
      obtain ⟨b, c, hr, hs, ht⟩ := first
      obtain ⟨bs, cs, allR, allS, allT⟩ := ih
      exact ⟨b :: bs, c :: cs, .cons hr allR, .cons hs allS, .cons ht allT⟩

/-- A list is written as its items between brackets. -/
theorem isRendering_list (depth : Nat) {parts : List (List Char)} {items : List Value}
    (renderings : List.Forall₂ IsRendering parts items) :
    IsRendering ('[' :: (between (line (depth + 1)) (line depth) parts ++ [']']))
      (.list items) where
  written := isWritten_bracketed depth (by decide) (by decide)
    (forall_mem_of_forall₂ renderings fun _ _ part => part.written)
  read := by
    obtain ⟨tokens, outcomes, reads, nodes, succeed⟩ :=
      exists_forall₂ (renderings.imp fun _ _ rendering => rendering.read)
    refine ⟨_, _, readsAsValue_bracketed isBracket_sequence (isGap_line _) (isGap_line _)
      (reads.imp fun _ _ => ReadsAsValue.part), NodeReader.readsAsNode_sequence nodes, ?_⟩
    apply ((succeedsIff_allOutcomes succeed).map fun _ => makesValue_list).congr
    rw [Value.everywhere_list]
    exact (and_iff_right trivial).symm

/-- A way to write an entry. -/
structure IsEntryRendering (cs : List Char) (e : String × Value) : Prop where
  printable : IsPrintableText e.1
  rendering : ∃ value, cs = (Json.quoted e.1).toList ++ (':' :: ' ' :: value) ∧
    IsRendering value e.2

theorem IsEntryRendering.written {cs : List Char} {e : String × Value}
    (entry : IsEntryRendering cs e) : IsWritten cs := by
  obtain ⟨value, shape, rendering⟩ := entry.rendering
  rw [shape]
  exact (isWritten_quoted entry.printable).append
    ((rendering.written.cons (by decide)).cons (by decide))

/-- An entry with a key that is short enough is read as a node for its key and one for its
value. -/
theorem IsEntryRendering.read {cs : List Char} {e : String × Value}
    (entry : IsEntryRendering cs e) : ∃ tokens outcome, ReadsAsPart cs tokens ∧
      ReadsAsElement (fun bound first => NodeReader.readFlowEntries bound first false) tokens
        outcome ∧
      SucceedsIff ((Json.quoted e.1).length ≤ 1024 ∧ e.2.Everywhere KeysFit) (MakesEntry · e)
        outcome := by
  obtain ⟨value, shape, rendering⟩ := entry.rendering
  obtain ⟨tokens, outcome, reads, node, succeeds⟩ := rendering.read
  rw [shape]
  refine ⟨_, _, readsAsPart_entry entry.printable reads, node.entry e.1, ?_⟩
  rw [entryOutcome, String.length_toList]
  by_cases short : (Json.quoted e.1).length ≤ 1024
  · rw [if_pos short]
    apply (succeeds.map fun _ makes => ⟨rfl, makes⟩).congr
    exact (and_iff_right short).symm
  · rw [if_neg short]
    exact .error fun both => short both.1

theorem everywhere_keysFit_object (entries : List (String × Value)) :
    (Value.object (textEntries entries)).Everywhere KeysFit ↔
      ∀ e ∈ entries, (Json.quoted e.1).length ≤ 1024 ∧ e.2.Everywhere KeysFit := by
  rw [Value.everywhere_object, KeysFit, textEntries, List.forall_mem_map, List.forall_mem_map,
    forall₂_and]
  rfl

/-- A mapping is written as its entries between brackets. -/
theorem isRendering_object (depth : Nat) {parts : List (List Char)}
    {entries : List (String × Value)} (renderings : List.Forall₂ IsEntryRendering parts entries)
    (apart : (entries.map (·.1)).Nodup) :
    IsRendering ('\x7b' :: (between (line (depth + 1)) (line depth) parts ++ ['\x7d']))
      (.object (textEntries entries)) where
  written := isWritten_bracketed depth (by decide) (by decide)
    (forall_mem_of_forall₂ renderings fun _ _ part => part.written)
  read := by
    obtain ⟨tokens, outcomes, reads, elements, succeed⟩ :=
      exists_forall₂ (renderings.imp fun _ _ entry => entry.read)
    refine ⟨_, _, readsAsValue_bracketed isBracket_mapping (isGap_line _) (isGap_line _) reads,
      NodeReader.readsAsNode_mapping elements, ?_⟩
    apply ((succeedsIff_allOutcomes succeed).map (f := Node.ofEntries none .mapping)
      fun _ makes => makesValue_object makes apart).congr
    rw [everywhere_keysFit_object]

/-! ### How values are written -/

theorem joinWith_toList (separator : List Char) (part : String) (rest : List String) :
    (joinWith (String.ofList (',' :: separator)) (part :: rest)).toList =
      part.toList ++ moreParts separator (rest.map String.toList) := by
  rw [joinWith, String.toList_intercalate, String.toList_ofList, List.map_cons]
  induction rest generalizing part with
  | nil =>
      rw [List.map_nil, List.intercalate_singleton]
      exact (List.append_nil _).symm
  | cons next rest ih =>
      rw [List.map_cons, List.intercalate_cons_of_ne_nil (List.cons_ne_nil _ _), ih]
      simp only [moreParts, List.flatMap_cons, List.cons_append, List.append_assoc]

theorem bracketed_toList (left right : Char) (depth : Nat) (parts : List String) :
    (Json.bracketed (String.singleton left) (String.singleton right) depth parts).toList =
      left :: (between (line (depth + 1)) (line depth) (parts.map String.toList) ++ [right]) := by
  cases parts with
  | nil =>
      show (String.singleton left ++ String.singleton right).toList = _
      rw [String.toList_append, String.toList_singleton, String.toList_singleton]
      rfl
  | cons part rest =>
      have separator :
          "," ++ Json.newLine (depth + 1) = String.ofList (',' :: line (depth + 1)) := by
        simp only [← String.toList_inj, String.toList_append, String.toList_ofList, Json.newLine]
        rfl
      show (String.singleton left ++ Json.newLine (depth + 1) ++
        joinWith ("," ++ Json.newLine (depth + 1)) (part :: rest) ++ Json.newLine depth ++
        String.singleton right).toList = _
      rw [separator]
      simp only [String.toList_append, String.toList_singleton, joinWith_toList, Json.newLine,
        String.toList_ofList, List.map_cons, between, List.append_assoc, List.cons_append,
        List.nil_append]
      rfl

/-- Items are written one by one. -/
theorem exists_itemTexts {lenient : Bool} {depth : Nat} {items : List Value}
    (written : ∀ v ∈ items, ∃ t, Json.text lenient depth v = .ok t ∧ IsRendering t.toList v) :
    ∃ parts, Json.itemTexts lenient depth items = .ok parts ∧
      List.Forall₂ IsRendering (parts.map String.toList) items := by
  induction items with
  | nil => exact ⟨[], rfl, .nil⟩
  | cons v rest ih =>
      obtain ⟨⟨t, text, rendering⟩, others⟩ := List.forall_mem_cons.1 written
      obtain ⟨parts, texts, renderings⟩ := ih others
      refine ⟨t :: parts, ?_, .cons rendering renderings⟩
      rw [Json.itemTexts, text, texts]
      rfl

/-- Entries are written one by one. -/
theorem exists_entryTexts {lenient : Bool} {depth : Nat} {entries : List (String × Value)}
    (printable : ∀ e ∈ entries, IsPrintableText e.1)
    (written : ∀ e ∈ entries, ∃ t, Json.text lenient depth e.2 = .ok t ∧
      IsRendering t.toList e.2) :
    ∃ parts, Json.entryTexts lenient depth (textEntries entries) = .ok parts ∧
      List.Forall₂ IsEntryRendering (parts.map String.toList) entries := by
  induction entries with
  | nil => exact ⟨[], rfl, .nil⟩
  | cons e rest ih =>
      obtain ⟨⟨t, text, rendering⟩, others⟩ := List.forall_mem_cons.1 written
      obtain ⟨key, keys⟩ := List.forall_mem_cons.1 printable
      obtain ⟨parts, texts, renderings⟩ := ih keys others
      refine ⟨(Json.quoted e.1 ++ ": " ++ t) :: parts, ?_, .cons ⟨key, t.toList, ?_, rendering⟩
        renderings⟩
      · show Json.entryTexts lenient depth ((.text e.1, e.2) :: textEntries rest) = _
        rw [Json.entryTexts, text, texts]
        rfl
      · rw [String.toList_append, String.toList_append, List.append_assoc]
        rfl

/-- A value that JSON represents has a text, and the text is a way to write it. -/
theorem exists_text_of_represented {v : Value} (represented : Represented v) (lenient : Bool)
    (depth : Nat) : ∃ t, Json.text lenient depth v = .ok t ∧ IsRendering t.toList v := by
  induction represented generalizing depth with
  | null =>
      have tag : Tag.ofPlain "null" = .null := by decide
      refine ⟨"null", rfl, isRendering_plain (isPlainText_word (by decide) (by decide)) ?_ ?_⟩
      · exact makesValue_scalar (tag ▸ rfl) (Value.everywhere_of_parts rfl trivial)
      · exact Value.everywhere_of_parts rfl trivial
  | bool b =>
      refine ⟨Json.boolText b, rfl, isRendering_plain (isPlainText_bool b) ?_ ?_⟩
      · exact makesValue_scalar (scalarValue_bool b) (Value.everywhere_of_parts rfl trivial)
      · exact Value.everywhere_of_parts rfl trivial
  | int n =>
      exact ⟨toString n, rfl, isRendering_plain (isPlainText_int n) (makesValue_int n)
        (Value.everywhere_of_parts rfl trivial)⟩
  | @float x normal =>
      have text : Json.floatText x = x.text := by
        cases x with
        | finite => rfl
        | _ => exact normal.elim
      refine ⟨x.text, congrArg Except.ok text, isRendering_plain (isPlainText_float normal) ?_ ?_⟩
      · exact makesValue_scalar (scalarValue_float normal) (Value.everywhere_of_parts rfl trivial)
      · exact Value.everywhere_of_parts rfl trivial
  | text printable => exact ⟨_, rfl, isRendering_quoted printable⟩
  | list _ ih =>
      obtain ⟨parts, texts, renderings⟩ := exists_itemTexts fun v mem => ih v mem (depth + 1)
      refine ⟨Json.bracketed "[" "]" depth parts, ?_, ?_⟩
      · rw [Json.text, texts]
        rfl
      · exact bracketed_toList '[' ']' depth parts ▸ isRendering_list depth renderings
  | object printable apart _ ih =>
      obtain ⟨parts, texts, renderings⟩ :=
        exists_entryTexts printable fun e mem => ih e mem (depth + 1)
      refine ⟨Json.bracketed "\x7b" "\x7d" depth parts, ?_, ?_⟩
      · rw [Json.text, texts]
        rfl
      · exact bracketed_toList '\x7b' '\x7d' depth parts ▸
          isRendering_object depth renderings apart

/-! ### Loading a document -/

theorem unifyBreaks_of_isWritten {cs : List Char} (written : IsWritten cs) :
    unifyBreaks cs = cs := by
  induction cs with
  | nil => rfl
  | cons c rest ih =>
      obtain ⟨first, others⟩ := List.forall_mem_cons.1 written
      have noReturn : c ≠ '\r' := by
        rintro rfl
        exact absurd first (by decide)
      rw [unifyBreaks, ih others]
      · exact fun _ same _ => noReturn same
      · exact fun same => noReturn same

theorem checkCharacters_of_isWritten {cs : List Char} (written : IsWritten cs) :
    checkCharacters cs = .ok () := by
  have none : cs.findIdx? (!isAdmitted ·) = none := by
    rw [List.findIdx?_eq_none_iff]
    intro c mem
    rcases written c mem with rfl | printable
    · rfl
    · rw [isAdmitted_of_isPrintable printable]
      rfl
  rw [checkCharacters, none]

/-- A value that stands alone, but for the end of its line, is the whole stream. -/
theorem ofChars_of_readsAsValue {cs after : List Char} {ts : List Token}
    (reads : ReadsAsValue cs ts) (gapAfter : IsGap after) :
    TokenStream.ofChars (cs ++ after) = ⟨ts ++ [.streamEnd], .tokens⟩ := by
  have stands : (Layout.start (cs ++ after)).StandsAt 0 ([] ++ (cs ++ (after ++ []))) :=
    ⟨rfl, by rw [List.nil_append, List.append_nil]; rfl, rfl, rfl,
      fun _ mem => absurd mem List.not_mem_nil, rfl⟩
  obtain ⟨l', after', gap', stands', read⟩ :=
    reads _ 0 [] after [] stands ⟨0, .inl rfl⟩ gapAfter (.inl rfl)
  obtain ⟨bound, enough, same⟩ := read.leads _ (Nat.lt_succ_self _)
  have all : (Layout.start (cs ++ after)).tokens = [] := rfl
  rw [TokenStream.ofChars]
  show TokenStream.ofLayout ((cs ++ after).length + 1) _ = _
  rw [show (cs ++ after).length + 1 =
    (Layout.start (cs ++ after)).cursor.rest.length.succ from rfl, same,
    Layout.ofLayout_end stands' gap'.isBlank enough, read.tokens, all, List.append_nil,
    List.reverse_cons, List.reverse_reverse]

theorem nearestFault_eq_none_iff (faults : List (Nat × Error)) :
    nearestFault faults = none ↔ faults = [] := by
  cases faults with
  | nil => exact ⟨fun _ => rfl, fun _ => rfl⟩
  | cons fault earlier =>
      refine ⟨fun none => ?_, fun none => absurd none (List.cons_ne_nil _ _)⟩
      rw [nearestFault] at none
      split at none
      · split at none <;> cases none
      · cases none

theorem Node.MakesValue.value {node : Node} {v : Value} (makes : node.MakesValue v)
    (st : Store) :
    SucceedsIff (v.Everywhere IntegerFits) (· = (v.reread, st)) (node.value st) := by
  obtain ⟨x, faults, run, equal, sound⟩ := makes 0 ⟨st, [], []⟩
  rw [Node.value, run]
  simp only [Making.withFaults, List.append_nil]
  cases found : nearestFault faults with
  | none =>
      have fits := sound.1 ((nearestFault_eq_none_iff faults).1 found)
      exact .ok fits (by rw [equal fits])
  | some fault =>
      refine .error fun fits => ?_
      rw [(nearestFault_eq_none_iff faults).2 (sound.2 fits)] at found
      cases found

/-- A written value is loaded as what it is read back as, if it fits. -/
theorem load_of_isRendering {t ending : String} {v : Value} (rendering : IsRendering t.toList v)
    (ends : IsGap ending.toList) (st : Store) :
    SucceedsIff (v.Everywhere KeysFit ∧ v.Everywhere IntegerFits) (· = (v.reread, st))
      (load (t ++ ending) st) := by
  obtain ⟨tokens, outcome, reads, node, succeeds⟩ := rendering.read
  have all := rendering.written.append ends.isWritten
  have steps (text : String) : load text st =
      (checkCharacters (unifyBreaks text.toList)).bind fun _ =>
        (Node.ofTokens (TokenStream.ofChars (unifyBreaks text.toList))).bind fun document =>
          document.elim (.ok (.null, st)) (·.value st) := by
    rw [load]
    congr 1
    funext _
    congr 1
    funext document
    cases document <;> rfl
  have loaded : load (t ++ ending) st = outcome.bind (·.value st) := by
    rw [steps, String.toList_append, unifyBreaks_of_isWritten all,
      checkCharacters_of_isWritten all, ofChars_of_readsAsValue reads ends,
      NodeReader.ofTokens_of_readsAsNode node]
    cases outcome <;> rfl
  rw [loaded]
  cases succeeds with
  | error long => exact .error fun both => long both.1
  | ok short makes => exact (makes.value st).congr (and_iff_right short).symm

end Yaml

/-! ### The round trip -/

open Yaml (IsGap SucceedsIff exists_text_of_represented load_of_isRendering)

/-- Whether a value can be loaded from its text: its integers have few enough digits, and
its keys are short enough to be found. -/
def Value.Loadable (v : Value) : Prop := v.Everywhere KeysFit ∧ v.Everywhere IntegerFits

instance (v : Value) : Decidable v.Loadable :=
  inferInstanceAs (Decidable (v.Everywhere KeysFit ∧ v.Everywhere IntegerFits))

/-- A value that JSON represents has a text that is loaded, if the value fits, as what it
is read back as. -/
theorem exists_text_loads {v : Value} (represented : Represented v) (lenient : Bool)
    (path : String) (st : Store) : ∃ t, Json.render lenient v = .ok t ∧
      ∀ ending : String, IsGap ending.toList →
        SucceedsIff v.Loadable (· = (v.reread, st))
          (loadData Yaml.load path (some (t ++ ending)) st) := by
  obtain ⟨t, text, rendering⟩ := exists_text_of_represented represented lenient 0
  refine ⟨t, text, fun ending ends => ?_⟩
  rw [loadData, loadFile]
  exact (load_of_isRendering rendering ends st).mapError LoadFault.unreadable

theorem loadData_error_unreadable {path text : String} {st : Store} {e : LoadFault}
    (failed : loadData Yaml.load path (some text) st = .error e) :
    ∃ cause, e = .unreadable cause := by
  rw [loadData, loadFile] at failed
  cases outcome : Yaml.load text st with
  | error cause =>
      rw [outcome] at failed
      exact ⟨cause, (Except.error.inj failed).symm⟩
  | ok result =>
      rw [outcome] at failed
      cases failed

/-- What is written for a value that JSON represents is loaded again, also with the end of
its line, unless an integer or a key in it is too long. What is loaded is the value itself
exactly if all its floating-point numbers are written with a point: the others become
texts. -/
theorem loadData_render {v : Value} (represented : Represented v) (lenient : Bool)
    (path : String) (st : Store) {ending : String} (ends : ending = "" ∨ ending = "\n") :
    ∃ t, Json.render lenient v = .ok t ∧
      (v.Loadable → loadData Yaml.load path (some (t ++ ending)) st = .ok (v.reread, st)) ∧
      (¬v.Loadable →
        ∃ e, loadData Yaml.load path (some (t ++ ending)) st = .error (.unreadable e)) ∧
      (loadData Yaml.load path (some (t ++ ending)) st = .ok (v, st) ↔
        v.Loadable ∧ v.Everywhere HasPoint) := by
  obtain ⟨t, text, loads⟩ := exists_text_loads represented lenient path st
  have succeeds := loads ending (by rcases ends with rfl | rfl; exacts [.inl rfl, .inr ⟨0, rfl⟩])
  refine ⟨t, text, succeeds.eq_ok, fun fails => ?_, ?_⟩
  · obtain ⟨e, failed⟩ := succeeds.exists_error fails
    obtain ⟨cause, rfl⟩ := loadData_error_unreadable failed
    exact ⟨cause, failed⟩
  · rw [← represented.reread_eq_self_iff]
    constructor
    · intro same
      obtain ⟨fits, equal⟩ := succeeds.of_eq_ok same
      exact ⟨fits, (congrArg Prod.fst equal).symm⟩
    · rintro ⟨fits, equal⟩
      rw [succeeds.eq_ok fits, equal]

/-- A mapping with values of every sort. -/
def crate : Value := .object (textEntries
  [("label", .text "Café \"Sud\""), ("count", .int 12), ("sealed", .bool true),
    ("weights", .list [.float (.finite false 5629499534213120 (-51)), .null])])

theorem represented_crate : Represented crate := by
  apply Represented.object (by decide +kernel) (by decide)
  simp only [List.forall_mem_cons, List.not_mem_nil, false_implies, implies_true, and_true]
  refine ⟨.text (by decide +kernel), .int 12, .bool true, .list ?_⟩
  simp only [List.forall_mem_cons, List.not_mem_nil, false_implies, implies_true, and_true]
  exact ⟨.float (.inr ⟨by decide, by decide, by decide, by decide, by decide⟩), .null⟩

/-- The mapping comes back as it was. -/
theorem loadData_render_crate : Represented crate ∧ ∃ t, Json.render true crate = .ok t ∧
    loadData Yaml.load "crate.json" (some (t ++ "\n")) Store.empty = .ok (crate, Store.empty) := by
  obtain ⟨t, written, -, -, same⟩ :=
    loadData_render represented_crate true "crate.json" Store.empty (.inr rfl)
  have loadable : crate.Loadable := by decide +kernel
  have pointed : crate.Everywhere HasPoint := by decide +kernel
  exact ⟨represented_crate, t, written, same.2 ⟨loadable, pointed⟩⟩

/-- Ten to the power of sixteen. -/
def tenToSixteen : Binary64 := .finite false 5000000000000000 1

/-- It is written without a point, and comes back as a text. -/
theorem tenToSixteen_read_as_text :
    Json.render true (.float tenToSixteen) = .ok "1e+16" ∧
      loadData Yaml.load "number.json" (some "1e+16") Store.empty =
        .ok (.text "1e+16", Store.empty) := by
  have normal : tenToSixteen.IsNormal :=
    .inr ⟨by decide, by decide, by decide, by decide, by decide⟩
  have written : Json.render true (.float tenToSixteen) = .ok "1e+16" := by decide +kernel
  have text : tenToSixteen.text = "1e+16" := by decide +kernel
  have point : '.' ∉ tenToSixteen.text.toList := by
    rw [text]
    decide
  have fits : (Value.float tenToSixteen).Loadable :=
    ⟨Value.everywhere_of_parts rfl trivial, Value.everywhere_of_parts rfl trivial⟩
  obtain ⟨t, same, loads⟩ := exists_text_loads (.float normal) true "number.json" Store.empty
  obtain rfl : "1e+16" = t := Except.ok.inj (written.symm.trans same)
  have loaded := (loads "" (.inl rfl)).eq_ok fits
  rw [String.append_empty, Value.reread, if_neg point, text] at loaded
  exact ⟨written, loaded⟩

end DataContract
