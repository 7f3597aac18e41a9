/-
# Nodes of flow collections

Reading a node takes exactly its own tokens and leaves the others. For collections this
is said once for anything that has elements with commas between them: each element is read
by itself, and the first one that cannot be read decides. The elements of a sequence are
nodes; those of a mapping are entries, which have to begin with a key.
-/

import DataContract.Proofs.Yaml.FlowReading
import DataContract.Yaml.NodeReader

set_option autoImplicit false

namespace DataContract.Yaml

/-- A reading with other tokens to come. -/
def Reading.withTokens (s : Reading) (ts : List Token) : Reading :=
  { s with stream := { s.stream with tokens := ts } }

namespace NodeReader

open Layout (keyTokens)

/-! ### Elements with commas between them -/

/-- Some tokens are read as an element of a collection, in front of any others and also
after a comma. -/
structure ReadsAsElement {α : Type} (read : Nat → Bool → NodeReader (List α)) (ts : List Token)
    (outcome : Except Error α) : Prop where
  nonempty : ts ≠ []
  first : ∀ (bound : Nat) (s : Reading) (rest : List Token), ts.length ≤ bound →
    (read (bound + 1) true).run (s.withTokens (ts ++ rest)) =
      outcome.bind fun x => ((read bound false).run (s.withTokens rest)).map
        fun p => (x :: p.1, p.2)
  comma : ∀ (bound : Nat) (s : Reading) (rest : List Token),
    (read (bound + 1) false).run (s.withTokens (.flowEntry :: (ts ++ rest))) =
      (read (bound + 1) true).run (s.withTokens (ts ++ rest))

/-- A token that ends a collection. -/
def EndsElements {α : Type} (read : Nat → Bool → NodeReader (List α)) (closing : Token) : Prop :=
  ∀ (bound : Nat) (first : Bool) (s : Reading) (rest : List Token),
    (read (bound + 1) first).run (s.withTokens (closing :: rest)) = .ok ([], s.withTokens rest)

/-- All of some outcomes, or the first failure. -/
def allOutcomes {α : Type} : List (Except Error α) → Except Error (List α)
  | [] => .ok []
  | outcome :: rest => outcome.bind fun x => (allOutcomes rest).map (x :: ·)

section Elements

variable {α : Type} {read : Nat → Bool → NodeReader (List α)} {closing : Token}
  {tokens : List (List Token)} {outcomes : List (Except Error α)}

theorem bind_map_cons (outcome : Except Error α) (more : Except Error (List α)) (s : Reading) :
    (outcome.bind fun x => (more.map fun xs => (xs, s)).map fun p => (x :: p.1, p.2)) =
      (outcome.bind fun x => more.map (x :: ·)).map fun xs => (xs, s) := by
  cases outcome <;> cases more <;> rfl

/-- Elements after the first one are read, each after its comma. -/
theorem read_moreElements (ends : EndsElements read closing)
    (elements : List.Forall₂ (ReadsAsElement read) tokens outcomes) (bound : Nat) (s : Reading)
    (rest : List Token)
    (enough : (tokens.flatMap fun us => Token.flowEntry :: us).length + 1 ≤ bound) :
    (read bound false).run (s.withTokens
        (tokens.flatMap (fun us => .flowEntry :: us) ++ closing :: rest)) =
      (allOutcomes outcomes).map fun xs => (xs, s.withTokens rest) := by
  induction elements generalizing bound with
  | nil =>
      obtain ⟨n, rfl⟩ : ∃ n, bound = n + 1 := ⟨bound - 1, by omega⟩
      exact ends n false s rest
  | cons element _ ih =>
      obtain ⟨n, rfl⟩ : ∃ n, bound = n + 1 := ⟨bound - 1, by omega⟩
      simp only [List.flatMap_cons, List.length_append, List.length_cons] at enough
      rw [List.flatMap_cons, List.cons_append, List.cons_append, List.append_assoc, element.comma,
        element.first n s _ (by omega), ih n (by omega), bind_map_cons]
      rfl

/-- The elements of a collection are read up to its end. -/
theorem read_elements (ends : EndsElements read closing)
    (elements : List.Forall₂ (ReadsAsElement read) tokens outcomes) (bound : Nat) (s : Reading)
    (rest : List Token) (enough : (partTokens tokens).length + 1 ≤ bound) :
    (read bound true).run (s.withTokens (partTokens tokens ++ closing :: rest)) =
      (allOutcomes outcomes).map fun xs => (xs, s.withTokens rest) := by
  obtain ⟨n, rfl⟩ : ∃ n, bound = n + 1 := ⟨bound - 1, by omega⟩
  cases elements with
  | nil => exact ends n true s rest
  | cons element more =>
      simp only [partTokens, List.length_append] at enough
      have length := List.length_pos_of_ne_nil element.nonempty
      rw [partTokens, List.append_assoc, element.first n s _ (by omega),
        read_moreElements ends more n s rest (by omega), bind_map_cons]
      rfl

end Elements

/-! ### Nodes -/

/-- Whether a token begins a scalar or a flow collection. -/
def isOpening : Token → Bool
  | .scalar .. | .flowSequenceStart | .flowMappingStart => true
  | _ => false

/-- Some tokens are read as a node, in front of any others. -/
structure ReadsAsNode (ts : List Token) (outcome : Except Error Node) : Prop where
  begins : ∃ t rest, ts = t :: rest ∧ isOpening t = true
  reads : ∀ (bound : Nat) (block indentless : Bool) (s : Reading) (rest : List Token),
    ts.length ≤ bound →
    (readNode bound ⟨block, indentless, false⟩).run (s.withTokens (ts ++ rest)) =
      outcome.map fun node => (node, s.withTokens rest)

theorem readNode_scalar (bound : Nat) (place : Place) (s : Reading) (text : String)
    (plain : Bool) (rest : List Token) :
    (readNode (bound + 1) place).run (s.withTokens (.scalar text plain :: rest)) =
      .ok (.scalar (scalarTag none text plain) text, s.withTokens rest) := by
  rw [readNode]
  rfl

theorem readNode_sequence (bound : Nat) (block indentless : Bool) (s : Reading)
    (ts : List Token) :
    (readNode (bound + 1) ⟨block, indentless, false⟩).run
        (s.withTokens (.flowSequenceStart :: ts)) =
      ((readFlowItems bound true false).run (s.withTokens ts)).map
        fun p => (.sequence none .sequence p.1, p.2) := by
  rw [readNode]
  show ((readFlowItems bound true false).run (s.withTokens ts)).bind _ = _
  cases (readFlowItems bound true false).run (s.withTokens ts) <;> rfl

theorem readNode_mapping (bound : Nat) (block indentless : Bool) (s : Reading)
    (ts : List Token) :
    (readNode (bound + 1) ⟨block, indentless, false⟩).run
        (s.withTokens (.flowMappingStart :: ts)) =
      ((readFlowEntries bound true false).run (s.withTokens ts)).map
        fun p => (Node.ofEntries none .mapping p.1, p.2) := by
  rw [readNode]
  show ((readFlowEntries bound true false).run (s.withTokens ts)).bind _ = _
  cases (readFlowEntries bound true false).run (s.withTokens ts) <;> rfl

theorem readsAsNode_scalar (text : String) (plain : Bool) :
    ReadsAsNode [.scalar text plain] (.ok (.scalar (scalarTag none text plain) text)) where
  begins := ⟨_, _, rfl, rfl⟩
  reads := fun bound block indentless s rest enough => by
    obtain ⟨n, rfl⟩ : ∃ n, bound = n + 1 := ⟨bound - 1, by simp at enough; omega⟩
    exact readNode_scalar n _ s text plain rest

/-! ### Sequences -/

theorem endsElements_items :
    EndsElements (fun bound first => readFlowItems bound first false) .flowSequenceEnd := by
  intro bound first s rest
  show (readFlowItems (bound + 1) first false).run _ = _
  rw [readFlowItems]
  rfl

theorem ReadsAsNode.item {ts : List Token} {outcome : Except Error Node}
    (node : ReadsAsNode ts outcome) :
    ReadsAsElement (fun bound first => readFlowItems bound first false) ts outcome := by
  obtain ⟨t, us, rfl, opening⟩ := node.begins
  refine ⟨List.cons_ne_nil _ _, ?_, ?_⟩
  · intro bound s rest enough
    have step : (readFlowItems (bound + 1) true false).run (s.withTokens (t :: us ++ rest)) =
        ((readNode bound (flowPlace false)).run (s.withTokens (t :: us ++ rest))).bind fun p =>
          ((readFlowItems bound false false).run p.2).map fun q => (p.1 :: q.1, q.2) := by
      rw [readFlowItems]
      cases t <;> first | exact absurd opening Bool.false_ne_true | rfl
    rw [step, flowPlace, node.reads bound _ _ s rest enough]
    cases outcome <;> rfl
  · intro bound s rest
    show (readFlowItems (bound + 1) false false).run _ =
      (readFlowItems (bound + 1) true false).run _
    rw [readFlowItems, readFlowItems]
    cases t <;> first | exact absurd opening Bool.false_ne_true | rfl

/-- A sequence is read if its items are. -/
theorem readsAsNode_sequence {tokens : List (List Token)} {outcomes : List (Except Error Node)}
    (items : List.Forall₂ ReadsAsNode tokens outcomes) :
    ReadsAsNode (.flowSequenceStart :: (partTokens tokens ++ [.flowSequenceEnd]))
      ((allOutcomes outcomes).map (.sequence none .sequence)) where
  begins := ⟨_, _, rfl, rfl⟩
  reads := fun bound block indentless s rest enough => by
    simp only [List.length_cons, List.length_append, List.length_nil] at enough
    obtain ⟨n, rfl⟩ : ∃ n, bound = n + 1 := ⟨bound - 1, by omega⟩
    rw [List.cons_append, List.append_assoc, readNode_sequence]
    show (((fun bound first => readFlowItems bound first false) n true).run _).map _ = _
    rw [List.singleton_append,
      read_elements endsElements_items (items.imp fun _ _ => ReadsAsNode.item) n s rest (by omega)]
    cases allOutcomes outcomes <;> rfl

/-! ### Mappings -/

/-- The node of a text in quotes. -/
def textNode (k : String) : Node := .scalar .text k

/-- The outcome of reading an entry: without a key token, the colon is not expected. -/
def entryOutcome (k : String) (outcome : Except Error Node) : Except Error (Node × Node) :=
  if (Json.quoted k).toList.length ≤ 1024 then outcome.map fun node => (textNode k, node)
  else .error .grammar

theorem endsElements_entries :
    EndsElements (fun bound first => readFlowEntries bound first false) .flowMappingEnd := by
  intro bound first s rest
  show (readFlowEntries (bound + 1) first false).run _ = _
  rw [readFlowEntries]
  rfl

/-- After a key token, a key and a value are read. -/
theorem readFlowEntries_key (bound : Nat) (s : Reading) (k : String) (ts : List Token) :
    (readFlowEntries (bound + 1) true false).run (s.withTokens (.key :: .scalar k false :: ts)) =
      ((readNode bound (flowPlace false)).run (s.withTokens (.scalar k false :: ts))).bind
        fun p => ((readValue [.flowEntry, .flowMappingEnd]
          (readNode bound (flowPlace false))).run p.2).bind
            fun q => ((readFlowEntries bound false false).run q.2).map
              fun r => ((p.1, q.1) :: r.1, r.2) := by
  rw [readFlowEntries]
  rfl

/-- Without a key token, a node is taken for a key without a value. -/
theorem readFlowEntries_no_key (bound : Nat) (s : Reading) (k : String) (ts : List Token) :
    (readFlowEntries (bound + 1) true false).run (s.withTokens (.scalar k false :: ts)) =
      ((readNode bound (flowPlace false)).run (s.withTokens (.scalar k false :: ts))).bind
        fun p => ((readFlowEntries bound false false).run p.2).map
          fun r => ((p.1, Node.empty) :: r.1, r.2) := by
  rw [readFlowEntries]
  rfl

/-- A colon where a comma is expected is refused. -/
theorem readFlowEntries_colon (bound : Nat) (s : Reading) (ts : List Token) :
    (readFlowEntries (bound + 1) false false).run (s.withTokens (.value :: ts)) =
      .error .grammar := by
  rw [readFlowEntries]
  rfl

theorem ReadsAsNode.value {ts : List Token} {outcome : Except Error Node}
    (node : ReadsAsNode ts outcome) (bound : Nat) (s : Reading) (rest : List Token)
    (enough : ts.length ≤ bound) :
    (readValue [.flowEntry, .flowMappingEnd] (readNode bound (flowPlace false))).run
        (s.withTokens (.value :: (ts ++ rest))) =
      outcome.map fun node => (node, s.withTokens rest) := by
  rw [← node.reads bound false false s rest enough]
  obtain ⟨t, us, rfl, opening⟩ := node.begins
  cases t <;> first | exact absurd opening Bool.false_ne_true | rfl

/-- A key with its value is an element of a mapping. -/
theorem ReadsAsNode.entry_of_key {ts : List Token} {outcome : Except Error Node}
    (node : ReadsAsNode ts outcome) (k : String) :
    ReadsAsElement (fun bound first => readFlowEntries bound first false)
      (.key :: .scalar k false :: .value :: ts) (outcome.map fun node => (textNode k, node)) where
  nonempty := List.cons_ne_nil _ _
  first := fun bound s rest enough => by
    simp only [List.length_cons] at enough
    obtain ⟨n, rfl⟩ : ∃ n, bound = n + 1 := ⟨bound - 1, by omega⟩
    show (readFlowEntries (n + 2) true false).run
      (s.withTokens (.key :: .scalar k false :: .value :: (ts ++ rest))) = _
    rw [readFlowEntries_key, readNode_scalar]
    show ((readValue _ _).run (s.withTokens (.value :: (ts ++ rest)))).bind _ = _
    rw [node.value (n + 1) s rest (by omega)]
    cases outcome <;> rfl
  comma := fun bound s rest => by
    show (readFlowEntries (bound + 1) false false).run
        (s.withTokens (.flowEntry :: .key :: .scalar k false :: .value :: (ts ++ rest))) =
      (readFlowEntries (bound + 1) true false).run
        (s.withTokens (.key :: .scalar k false :: .value :: (ts ++ rest)))
    rw [readFlowEntries, readFlowEntries]
    rfl

/-- Where a text was not found to be a key, the colon after it cannot be read. -/
theorem readsAsElement_no_key (ts : List Token) (k : String) :
    ReadsAsElement (fun bound first => readFlowEntries bound first false)
      (.scalar k false :: .value :: ts) (.error .grammar) where
  nonempty := List.cons_ne_nil _ _
  first := fun bound s rest enough => by
    simp only [List.length_cons] at enough
    obtain ⟨n, rfl⟩ : ∃ n, bound = n + 1 := ⟨bound - 1, by omega⟩
    show (readFlowEntries (n + 2) true false).run
      (s.withTokens (.scalar k false :: .value :: (ts ++ rest))) = _
    rw [readFlowEntries_no_key, readNode_scalar]
    show ((readFlowEntries (n + 1) false false).run (s.withTokens (.value :: (ts ++ rest)))).map
      (fun r => ((textNode k, Node.empty) :: r.1, r.2)) = _
    rw [readFlowEntries_colon]
    rfl
  comma := fun bound s rest => by
    show (readFlowEntries (bound + 1) false false).run
        (s.withTokens (.flowEntry :: .scalar k false :: .value :: (ts ++ rest))) =
      (readFlowEntries (bound + 1) true false).run
        (s.withTokens (.scalar k false :: .value :: (ts ++ rest)))
    rw [readFlowEntries, readFlowEntries]
    rfl

/-- The value of a key is an element of a mapping, if the key is short enough. -/
theorem ReadsAsNode.entry {ts : List Token} {outcome : Except Error Node}
    (node : ReadsAsNode ts outcome) (k : String) :
    ReadsAsElement (fun bound first => readFlowEntries bound first false) (keyTokens k ++ ts)
      (entryOutcome k outcome) := by
  rw [keyTokens, entryOutcome]
  split
  · exact node.entry_of_key k
  · exact readsAsElement_no_key ts k

/-- A mapping is read if its entries are. -/
theorem readsAsNode_mapping {tokens : List (List Token)}
    {outcomes : List (Except Error (Node × Node))}
    (entries : List.Forall₂
      (ReadsAsElement fun bound first => readFlowEntries bound first false) tokens outcomes) :
    ReadsAsNode (.flowMappingStart :: (partTokens tokens ++ [.flowMappingEnd]))
      ((allOutcomes outcomes).map (Node.ofEntries none .mapping)) where
  begins := ⟨_, _, rfl, rfl⟩
  reads := fun bound block indentless s rest enough => by
    simp only [List.length_cons, List.length_append, List.length_nil] at enough
    obtain ⟨n, rfl⟩ : ∃ n, bound = n + 1 := ⟨bound - 1, by omega⟩
    rw [List.cons_append, List.append_assoc, readNode_mapping]
    show (((fun bound first => readFlowEntries bound first false) n true).run _).map _ = _
    rw [List.singleton_append, read_elements endsElements_entries entries n s rest (by omega)]
    cases allOutcomes outcomes <;> rfl

/-! ### The only document -/

/-- What is returned if no other document follows. -/
def onlyDocument (bound : Nat) (node : Node) : NodeReader (Option Node) := do
  if ← beginDocument bound then throw .structural
  return some node

/-- What begins with a scalar or a flow collection is the content of a document, which has
to be the only one. -/
theorem readSingle_opening (bound : Nat) {t : Token} (opening : isOpening t = true) (s : Reading)
    (ts : List Token) :
    (readSingle bound).run (s.withTokens (t :: ts)) =
      ((readNode bound (blockPlace false)).run (s.withTokens (t :: ts))).bind fun p =>
        (onlyDocument bound p.1).run p.2 := by
  rw [readSingle]
  cases t <;> first | exact absurd opening Bool.false_ne_true | rfl

/-- The node of a document that holds nothing else. -/
theorem ofTokens_of_readsAsNode {ts : List Token} {outcome : Except Error Node}
    (node : ReadsAsNode ts outcome) (e : Error) :
    Node.ofTokens ⟨ts ++ [.streamEnd], e⟩ = outcome.map some := by
  obtain ⟨t, us, rfl, opening⟩ := node.begins
  have enough : (t :: us).length ≤ 2 * (t :: us ++ [Token.streamEnd]).length + 2 := by
    simp only [List.length_append, List.length_cons]
    omega
  have reads := node.reads _ true false ⟨⟨[], e⟩, defaultHandles, [], 0⟩ [.streamEnd] enough
  have single := readSingle_opening (2 * (t :: us ++ [Token.streamEnd]).length + 2) opening
    ⟨⟨[], e⟩, defaultHandles, [], 0⟩ (us ++ [.streamEnd])
  rw [← List.cons_append, blockPlace, reads] at single
  rw [Node.ofTokens]
  show ((readSingle _).run (Reading.withTokens ⟨⟨[], e⟩, defaultHandles, [], 0⟩ _)).map _ = _
  rw [single]
  cases outcome <;> rfl

end NodeReader

end DataContract.Yaml
