/-
# Making the values of unmarked nodes

Nodes that are read from brackets have no marks, so making their values leaves the store
alone. A node makes what a value is read back as, and no fault, if all integers in the
value have few enough digits; otherwise there is a fault, whatever is made.
-/

import DataContract.Proofs.Value.Entries
import DataContract.Proofs.Yaml.NodeReading
import DataContract.Proofs.Yaml.Reread
import DataContract.Yaml.Document

set_option autoImplicit false

namespace DataContract.Yaml

open NodeReader (textNode)

/-! ### Entries under different texts -/

theorem get?_textEntries_eq_none {entries : List (String × Value)} {k : String}
    (absent : k ∉ entries.map (·.1)) : (textEntries entries).get? (.text k) = none := by
  induction entries with
  | nil => rfl
  | cons e rest ih =>
      rw [List.map_cons, List.mem_cons, not_or] at absent
      have other : (Value.text e.1).equal (.text k) = false := by
        rw [Value.equal, beq_eq_false_iff_ne]
        exact fun same => absent.1 same.symm
      show (if (Value.text e.1).equal (.text k) then some e.2 else _) = none
      rw [other, if_neg Bool.false_ne_true]
      exact ih absent.2

/-- Entries under different texts are written one after the other. -/
theorem putAll_textEntries {front back : List (String × Value)}
    (apart : ((front ++ back).map (·.1)).Nodup) :
    (textEntries front).putAll (textEntries back) = textEntries (front ++ back) := by
  induction back generalizing front with
  | nil => rw [List.append_nil]; rfl
  | cons e rest ih =>
      have absent : e.1 ∉ front.map (·.1) := by
        rw [List.map_append, List.map_cons, List.nodup_append] at apart
        exact fun mem => apart.2.2 e.1 mem e.1 List.mem_cons_self rfl
      have written : (textEntries front).put (.text e.1) e.2 = textEntries (front ++ [e]) := by
        rw [Entries.put_of_get?_none (get?_textEntries_eq_none absent), textEntries, textEntries,
          List.map_append]
        rfl
      show Entries.putAll ((textEntries front).put (.text e.1) e.2) (textEntries rest) = _
      rw [written, ih (by rwa [List.append_assoc]), List.append_assoc]
      rfl

theorem ofPairs_textEntries {entries : List (String × Value)}
    (apart : (entries.map (·.1)).Nodup) :
    Entries.ofPairs (textEntries entries) = textEntries entries := by
  have written : (textEntries []).putAll (textEntries entries) = textEntries ([] ++ entries) :=
    putAll_textEntries apart
  exact written

/-! ### Making and its faults -/

/-- With the faults that were found first. -/
def Making.withFaults (m : Making) (faults : List (Nat × Error)) : Making :=
  { m with faults := faults ++ m.faults }

theorem Making.withFaults_withFaults (m : Making) (first second : List (Nat × Error)) :
    (m.withFaults first).withFaults second = m.withFaults (second ++ first) := by
  simp only [withFaults, List.append_assoc]

/-- Making takes note of some faults and does nothing else: of none, with a given outcome,
if a condition holds, and of some otherwise. -/
def MakesUnless {α : Type} (make : Maker α) (fits : Prop) (expected : α) : Prop :=
  ∀ m, ∃ x faults, make.run m = (x, m.withFaults faults) ∧ (fits → x = expected) ∧
    (faults = [] ↔ fits)

theorem makesUnless_pure {α : Type} {fits : Prop} (holds : fits) (x : α) :
    MakesUnless (pure x) fits x :=
  fun _ => ⟨x, [], rfl, fun _ => rfl, ⟨fun _ => holds, fun _ => rfl⟩⟩

theorem makesUnless_fault {α : Type} {fits : Prop} (fails : ¬fits) (depth : Nat) (e : Error)
    (x expected : α) :
    MakesUnless (do Maker.fault depth e; return x) fits expected :=
  fun _ => ⟨x, [(depth, e)], rfl, fun holds => absurd holds fails,
    ⟨fun none => absurd none (List.cons_ne_nil _ _), fun holds => absurd holds fails⟩⟩

/-- What is made one after the other makes faults if either does. -/
theorem MakesUnless.both {α β γ : Type} {first : Maker α} {second : Maker β} {p q : Prop} {a : α}
    {b : β} (hf : MakesUnless first p a) (hs : MakesUnless second q b) (f : α → β → γ) :
    MakesUnless (do let x ← first; return f x (← second)) (p ∧ q) (f a b) := by
  intro m
  obtain ⟨x, faults, runFirst, isFirst, none⟩ := hf m
  obtain ⟨y, more, runSecond, isSecond, noMore⟩ := hs (m.withFaults faults)
  refine ⟨f x y, more ++ faults, ?_, ?_, ?_⟩
  · have run : (do let x ← first; return f x (← second) : Maker γ).run m =
        ((fun s => (f (first.run m).1 s.1, s.2)) (second.run (first.run m).2)) := rfl
    rw [run, runFirst, runSecond, Making.withFaults_withFaults]
  · rintro ⟨hp, hq⟩
    rw [isFirst hp, isSecond hq]
  · rw [List.append_eq_nil_iff, none, noMore, and_comm]

theorem MakesUnless.congr {α : Type} {make : Maker α} {p q : Prop} {a b : α}
    (makes : MakesUnless make p a) (same : p ↔ q) (equal : a = b) : MakesUnless make q b := by
  rw [← propext same, ← equal]
  exact makes

/-! ### Nodes and the values that they make -/

/-- A node makes what a value is read back as, unless an integer does not fit. -/
def Node.MakesValue (node : Node) (v : Value) : Prop :=
  ∀ depth, MakesUnless (node.make depth) (v.Everywhere IntegerFits) v.reread

/-- A scalar has its value, or a fault. -/
theorem makesUnless_ofScalar {depth : Nat} {tag : Tag} {text : String} {fits : Prop}
    {expected : Value} (sound : fits → scalarValue tag text = .ok expected)
    (refuses : ¬fits → ∃ e, scalarValue tag text = .error e) :
    MakesUnless (Maker.ofScalar depth tag text) fits expected := by
  rw [Maker.ofScalar]
  by_cases holds : fits
  · rw [sound holds]
    exact makesUnless_pure holds expected
  · obtain ⟨e, failed⟩ := refuses holds
    rw [failed]
    exact makesUnless_fault holds _ e _ expected

/-- A scalar that is no integer makes its value. -/
theorem makesValue_scalar {tag : Tag} {text : String} {v : Value}
    (value : scalarValue tag text = .ok v.reread) (fits : v.Everywhere IntegerFits) :
    (Node.scalar tag text).MakesValue v := fun _ =>
  makesUnless_ofScalar (fun _ => value) fun fails => absurd fits fails

theorem makesValue_int (n : Int) :
    (Node.scalar (Tag.ofPlain (toString n)) (toString n)).MakesValue (.int n) := fun depth => by
  have fits : (Value.int n).Everywhere IntegerFits ↔
      ¬Text.greatestDigitCount < (Nat.toDigits 10 n.natAbs).length := by
    rw [not_lt, ← Text.toList_toString, String.length_toList]
    exact List.forall_mem_singleton
  rw [ofPlain_int]
  apply makesUnless_ofScalar
  · intro holds
    rw [scalarValue, integerValue_toString, if_neg (fits.1 holds)]
    rfl
  · intro fails
    rw [scalarValue, integerValue_toString, if_pos (not_not.1 fun few => fails (fits.2 few))]
    exact ⟨_, rfl⟩

/-- Items are made one after the other. -/
theorem makesUnless_items {nodes : List Node} {items : List Value}
    (makes : List.Forall₂ Node.MakesValue nodes items) (depth : Nat) :
    MakesUnless (Node.makeItems depth nodes) (∀ v ∈ items, v.Everywhere IntegerFits)
      (rereadItems items) := by
  induction makes with
  | nil => exact makesUnless_pure (fun v mem => absurd mem List.not_mem_nil) []
  | cons first _ ih =>
      exact ((first depth).both ih List.cons).congr List.forall_mem_cons.symm rfl

theorem makesValue_list {nodes : List Node} {items : List Value}
    (makes : List.Forall₂ Node.MakesValue nodes items) :
    (Node.sequence none .sequence nodes).MakesValue (.list items) := fun depth => by
  have inside := (makesUnless_items makes (depth + 1)).both
    (makesUnless_pure trivial ()) fun vs _ => Value.list vs
  apply inside.congr
  · rw [Value.everywhere_list, and_comm]
    rfl
  · rfl

/-- The nodes of an entry make its text and its value. -/
def MakesEntry (nodes : Node × Node) (entry : String × Value) : Prop :=
  nodes.1 = textNode entry.1 ∧ nodes.2.MakesValue entry.2

/-- Entries are made one after the other. -/
theorem makesUnless_entries {pairs : List (Node × Node)} {entries : List (String × Value)}
    (makes : List.Forall₂ MakesEntry pairs entries) (depth : Nat) :
    MakesUnless (Node.makeEntries depth pairs) (∀ e ∈ entries, e.2.Everywhere IntegerFits)
      (rereadEntries (textEntries entries)) := by
  induction makes with
  | nil => exact makesUnless_pure (fun e mem => absurd mem List.not_mem_nil) []
  | @cons nodes entry pairs _ first _ ih =>
      obtain ⟨key, value⟩ := nodes
      obtain ⟨rfl, value⟩ := first
      have inside := (value depth).both ih fun v rest => (Value.text entry.1, v) :: rest
      apply inside.congr
      · rw [List.forall_mem_cons]
      · rfl

theorem forall_mem_of_forall₂ {α β : Type} {R : α → β → Prop} {P : α → Prop} {xs : List α}
    {ys : List β} (related : List.Forall₂ R xs ys) (holds : ∀ x y, R x y → P x) :
    ∀ x ∈ xs, P x :=
  ((List.forall₂_and_left xs ys).1 (related.imp fun x y r => ⟨holds x y r, r⟩)).1

/-- No text in quotes asks for merging. -/
theorem ofEntries_textNodes {pairs : List (Node × Node)}
    (keys : ∀ p ∈ pairs, ∃ k, p.1 = textNode k) :
    Node.ofEntries none .mapping pairs = .mapping none .mapping true pairs := by
  have own : pairs.filter (!·.1.isMergeKey) = pairs := List.filter_eq_self.2 fun p mem => by
    obtain ⟨k, key⟩ := keys p mem
    rw [key]
    rfl
  have merging : pairs.filter (·.1.isMergeKey) = [] := List.filter_eq_nil_iff.2 fun p mem => by
    obtain ⟨k, key⟩ := keys p mem
    rw [key]
    exact Bool.false_ne_true
  have asKeys : pairs.map (fun p => (p.1.asKey, p.2)) = pairs := by
    rw [List.map_congr_left (g := id), List.map_id]
    intro p mem
    obtain ⟨k, key⟩ := keys p mem
    show (p.1.asKey, p.2) = p
    rw [key]
    exact Prod.ext key.symm rfl
  rw [Node.ofEntries]
  simp only [own, merging]
  rw [asKeys]
  rfl

theorem makesValue_object {pairs : List (Node × Node)} {entries : List (String × Value)}
    (makes : List.Forall₂ MakesEntry pairs entries) (apart : (entries.map (·.1)).Nodup) :
    (Node.ofEntries none .mapping pairs).MakesValue (.object (textEntries entries)) :=
  fun depth => by
    rw [ofEntries_textNodes (forall_mem_of_forall₂ makes fun _ e entry => ⟨e.1, entry.1⟩)]
    have inside := (makesUnless_entries makes (depth + 1)).both
      (makesUnless_pure trivial ()) fun made _ => Value.object (Entries.ofPairs made)
    apply inside.congr
    · rw [Value.everywhere_object, and_comm, textEntries, List.forall_mem_map]
      rfl
    · rw [Value.reread, rereadEntries_textEntries, ofPairs_textEntries]
      rwa [List.map_map]

end DataContract.Yaml
