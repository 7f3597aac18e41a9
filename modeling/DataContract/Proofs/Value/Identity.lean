/-
# What a value is as a key

Keys are compared by `Value.equal`, which is no equivalence on all values: the
undefined number differs from itself, and mappings are compared by their entries. A
value that has an identity is a key like any other: it equals exactly the values with
the same identity, on whichever side it stands. A key without one equals nothing, so
that either is compared as keys are.
-/

import DataContract.Proofs.Number.Exact
import DataContract.Value.Equality

set_option autoImplicit false

namespace DataContract

/-- What a value is as a key. Numbers and truth values are what they stand for,
moments with an offset are instants, and functions and things are themselves. -/
inductive Identity where
  | null
  | number (value : Exact)
  | text (s : String)
  | bytes (bytes : List UInt8)
  | date (d : Date)
  | moment (zoned : Bool) (microseconds : Int)
  | tuple (parts : List Identity)
  | callable (f : TypeToken ⊕ Nat)
  | pattern (source : String) (options : Pattern.Options) (ofBytes : Bool)
  | thing (id : Nat)
  | validator (id : Nat)
  | plugin (id : Nat)

/-- The identity of a number; the undefined one has none. -/
def Number.identity? (n : Number) : Option Identity := n.extended.denoted?.map .number

/-- The identity of a moment. -/
def Moment.identity (m : Moment) : Identity :=
  .moment m.offset.isSome (m.clock - m.offset.getD 0)

/-- The identity of something callable. -/
def Callable.identity : Callable → Identity
  | .token t => .callable (.inl t)
  | .function id _ => .callable (.inr id)

mutual

/-- The identity of a value, which lists, sets, mappings and rules lack. -/
def Value.identity? : Value → Option Identity
  | .null => some .null
  | .bool b => (Number.int (if b then 1 else 0)).identity?
  | .int n => (Number.int n).identity?
  | .float x => (Number.float x).identity?
  | .text s => some (.text s)
  | .bytes content => some (.bytes content)
  | .date d => some (.date d)
  | .moment m => some m.identity
  | .tuple items => (identities? items).map .tuple
  | .callable f => some f.identity
  | .pattern p => some (.pattern p.source p.options p.ofBytes)
  | .thing id _ => some (.thing id)
  | .validator id _ => some (.validator id)
  | .plugin id _ => some (.plugin id)
  | _ => none
  termination_by structural v => v

/-- The identities of some values, if all of them have one. -/
def identities? : List Value → Option (List Identity)
  | [] => some []
  | v :: rest =>
    match v.identity?, identities? rest with
    | some i, some is => some (i :: is)
    | _, _ => none
  termination_by structural items => items

end

theorem Number.eq_iff_identity? (a b : Number) :
    a.eq b = true ↔ a.identity? = b.identity? ∧ b.identity?.isSome = true := by
  rw [Number.eq, Extended.eq_iff_denoted?, Number.identity?, Number.identity?, Option.isSome_map]
  cases a.extended.denoted? <;> cases b.extended.denoted? <;> simp

theorem Moment.same_iff_identity (a b : Moment) : a.same b = true ↔ a.identity = b.identity := by
  unfold Moment.same Moment.identity
  cases a.offset <;> cases b.offset <;> simp

theorem Callable.same_iff_identity (f g : Callable) :
    f.same g = true ↔ f.identity = g.identity := by
  cases f <;> cases g <;> simp [Callable.same, Callable.identity]

/-- A value has the identity of a number exactly if it equals that number. -/
theorem Value.identity?_eq_number_iff (w : Value) (e : Exact) :
    w.identity? = some (.number e) ↔ ∃ b, w.numeric? = some b ∧ b.identity? = some (.number e) := by
  cases w with
  | callable f =>
      cases f <;> simp [Value.identity?, Value.numeric?, Value.number?, Callable.identity]
  | tuple items =>
      cases identities? items <;> simp [Value.identity?, Value.numeric?, Value.number?]
  | _ => simp [Value.identity?, Value.numeric?, Value.number?, Moment.identity]

/-- A number equals the values that have its identity. -/
theorem Number.equalsValue_iff {a : Number} {i : Identity} (known : a.identity? = some i)
    (w : Value) : a.equalsValue w = true ↔ w.identity? = some i := by
  obtain ⟨e, -, rfl⟩ := Option.map_eq_some_iff.mp known
  rw [Value.identity?_eq_number_iff, Number.equalsValue]
  cases w.numeric? with
  | none => simp
  | some b =>
      simp only [Number.eq_iff_identity?, known, Option.some.injEq, exists_eq_left']
      constructor
      · exact fun same => same.1.symm
      · intro same
        simp [same]

/-- A mapping equals nothing that is no mapping. -/
theorem Value.equal_of_entries?_none {k n : Value} (mapping : k.entries?.isSome = true)
    (plain : n.entries? = none) : k.equal n = false := by
  cases k with
  | object own => simp [Value.equal, Value.isMappingWith, plain]
  | frozen own => simp [Value.equal, Value.isMappingWith, plain]
  | schema id s =>
      obtain ⟨rules, flex⟩ := s
      simp [Value.equal, Value.isMappingWith, plain]
  | _ => cases mapping

/-- Only numbers and truth values equal a number or truth value. -/
theorem Value.equal_iff_of_numeric {n : Value} {b : Number} (number : n.numeric? = some b)
    (k : Value) : k.equal n = true ↔ ∃ a, k.numeric? = some a ∧ a.eq b = true := by
  cases n with
  | bool _ | int _ | float _ =>
      cases number
      cases k with
      | object _ | frozen _ | schema _ _ =>
          rw [Value.equal_of_entries?_none rfl rfl]
          simp [Value.numeric?, Value.number?]
      | _ => simp [Value.equal, Value.numeric?, Value.number?, Number.equalsValue]
  | _ => cases number

/-- A number or truth value equals the values with its identity, in front of them and
behind them. -/
theorem Value.equal_iff_identity?_of_numeric {n : Value} {b : Number} {i : Identity}
    (number : n.numeric? = some b) (own : n.identity? = b.identity?)
    (infront : ∀ k : Value, n.equal k = b.equalsValue k) (known : n.identity? = some i)
    (k : Value) :
    (k.equal n = true ↔ k.identity? = some i) ∧ (n.equal k = true ↔ some i = k.identity?) := by
  have same : b.identity? = some i := own.symm.trans known
  constructor
  · obtain ⟨e, -, rfl⟩ := Option.map_eq_some_iff.mp same
    rw [Value.equal_iff_of_numeric number, Value.identity?_eq_number_iff]
    refine exists_congr fun a => and_congr_right fun _ => ?_
    rw [Number.eq_iff_identity?, same]
    simp
  · rw [infront, Number.equalsValue_iff same, eq_comm]

mutual

/-- A value with an identity equals the values with the same identity, in front of
them and behind them. -/
theorem Value.equal_iff_sameIdentity (n : Value) (i : Identity) (known : n.identity? = some i)
    (k : Value) :
    (k.equal n = true ↔ k.identity? = some i) ∧ (n.equal k = true ↔ some i = k.identity?) := by
  have mapping (own : n.entries? = none) (others : k.entries?.isSome = true)
      (after : n.equal k = false) :
      (k.equal n = true ↔ k.identity? = some i) ∧ (n.equal k = true ↔ some i = k.identity?) := by
    rw [Value.equal_of_entries?_none others own, after]
    cases k with
    | object _ | frozen _ | schema _ _ => simp [Value.identity?]
    | _ => cases others
  cases n with
  | bool b =>
      exact Value.equal_iff_identity?_of_numeric rfl rfl (fun _ => by rw [Value.equal]) known k
  | int m =>
      exact Value.equal_iff_identity?_of_numeric rfl rfl (fun _ => by rw [Value.equal]) known k
  | float x =>
      exact Value.equal_iff_identity?_of_numeric rfl rfl (fun _ => by rw [Value.equal]) known k
  | tuple items =>
      simp only [Value.identity?] at known
      obtain ⟨is, parts, rfl⟩ := Option.map_eq_some_iff.mp known
      have inner := itemsEqual_iff_sameIdentities items is parts
      cases k with
      | tuple others =>
          cases ownParts : identities? others <;>
            simp [Value.equal, Value.identity?, inner others, ownParts]
      | object _ | frozen _ | schema _ _ => exact mapping rfl rfl rfl
      | callable f =>
          cases f <;> simp [Value.equal, Value.identity?, Callable.identity]
      | bool _ | int _ | float _ =>
          simp [Value.equal, Value.identity?, Number.equalsValue, Value.numeric?, Value.number?,
            Number.identity?, Option.map_eq_some_iff, @eq_comm _ (some _)]
      | _ => simp [Value.equal, Value.identity?, Moment.identity]
  | callable g =>
      simp only [Value.identity?, Option.some.injEq] at known
      subst known
      cases k with
      | object _ | frozen _ | schema _ _ => exact mapping rfl rfl rfl
      | callable f => simp [Value.equal, Value.identity?, Callable.same_iff_identity]
      | tuple items =>
          cases g <;> cases parts : identities? items <;>
            simp [Value.equal, Value.identity?, parts, Callable.identity]
      | bool _ | int _ | float _ =>
          cases g <;>
          simp [Value.equal, Value.identity?, Number.equalsValue, Value.numeric?, Value.number?,
            Number.identity?, Option.map_eq_some_iff, @eq_comm _ (some _), Callable.identity]
      | _ => cases g <;> simp [Value.equal, Value.identity?, Moment.identity, Callable.identity]
  | list _ | set _ | object _ | frozen _ | schema _ _ | rule _ | shared _ =>
      simp [Value.identity?] at known
  | _ =>
      simp only [Value.identity?, Option.some.injEq] at known
      subst known
      cases k with
      | object _ | frozen _ | schema _ _ => exact mapping rfl rfl rfl
      | callable f =>
          cases f <;> simp [Value.equal, Value.identity?, Callable.identity, Moment.identity]
      | tuple items =>
          cases parts : identities? items <;>
            simp [Value.equal, Value.identity?, parts, Moment.identity]
      | bool _ | int _ | float _ =>
          simp [Value.equal, Value.identity?, Number.equalsValue, Value.numeric?, Value.number?,
            Number.identity?, Option.map_eq_some_iff, @eq_comm _ (some _), Moment.identity]
      | _ =>
          simp [Value.equal, Value.identity?, Moment.identity, Moment.same_iff_identity,
            Pattern.same, and_assoc]
termination_by structural n

theorem itemsEqual_iff_sameIdentities (ns : List Value) (is : List Identity)
    (known : identities? ns = some is) (ks : List Value) :
    (itemsEqual ks ns = true ↔ identities? ks = some is) ∧
      (itemsEqual ns ks = true ↔ some is = identities? ks) := by
  match ns with
  | [] =>
      cases known
      cases ks with
      | nil => simp [itemsEqual, identities?]
      | cons k rest =>
          cases first : k.identity? <;> cases others : identities? rest <;>
            simp [itemsEqual, identities?, first, others]
  | n :: rest =>
      rw [identities?] at known
      split at known
      · rename_i j js first others
        cases known
        cases ks with
        | nil => simp [itemsEqual, identities?]
        | cons k more =>
            have head := Value.equal_iff_sameIdentity n j first k
            have tail := itemsEqual_iff_sameIdentities rest js others more
            cases kFirst : k.identity? <;> cases kOthers : identities? more <;>
              simp [itemsEqual, identities?, head, tail, kFirst, kOthers]
      · cases known
termination_by structural ns

end

/-- A value with an identity equals the values with the same identity that stand behind
it. -/
theorem Value.equal_iff_of_identity? {n : Value} {i : Identity} (known : n.identity? = some i)
    (k : Value) : n.equal k = true ↔ k.identity? = some i :=
  ((Value.equal_iff_sameIdentity n i known k).2).trans eq_comm

/-- A value with an identity equals the values with the same identity that stand in
front of it. -/
theorem Value.equal_iff_of_identity?_right {n : Value} {i : Identity}
    (known : n.identity? = some i) (k : Value) : k.equal n = true ↔ k.identity? = some i :=
  (Value.equal_iff_sameIdentity n i known k).1

/-- A value with an identity equals itself. -/
theorem Value.equal_self {n : Value} (known : n.identity?.isSome = true) : n.equal n = true := by
  obtain ⟨i, identity⟩ := Option.isSome_iff_exists.mp known
  exact (Value.equal_iff_of_identity? identity n).mpr identity

/-! ## Keys without an identity -/

mutual

/-- Whether a value can be a key that is told apart by what it is: not what can be changed, and
no rule, as rules are compared part by part. -/
def Value.isSimpleKey : Value → Bool
  | .list _ | .set _ | .object _ | .frozen _ | .schema .. | .rule _ | .shared _ => false
  | .tuple items => allSimpleKeys items
  | _ => true
  termination_by structural v => v

/-- Whether all of some values can be such keys. -/
def allSimpleKeys : List Value → Bool
  | [] => true
  | v :: rest => v.isSimpleKey && allSimpleKeys rest
  termination_by structural items => items

end

/-- A number that has no identity equals nothing. -/
theorem Number.not_eq_of_undefined {a b : Number} (undefined : a.identity? = none) :
    a.eq b = false ∧ b.eq a = false := by
  constructor <;> rw [Bool.eq_false_iff, ne_eq, Number.eq_iff_identity?, undefined]
  · rintro ⟨same, known⟩
    rw [← same] at known
    cases known
  · rintro ⟨-, known⟩
    cases known

mutual

/-- A key without an identity, such as the undefined number, equals nothing, not even itself. -/
theorem Value.not_equal_of_undefined (n : Value) (simple : n.isSimpleKey = true)
    (undefined : n.identity? = none) (k : Value) : n.equal k = false ∧ k.equal n = false := by
  cases n with
  | float x =>
      rw [Value.identity?] at undefined
      constructor
      · rw [Value.equal, Number.equalsValue]
        cases k.numeric? with
        | none => rfl
        | some b => exact (Number.not_eq_of_undefined undefined).1
      · rw [Bool.eq_false_iff, ne_eq, Value.equal_iff_of_numeric (b := .float x) rfl]
        rintro ⟨a, -, same⟩
        rw [(Number.not_eq_of_undefined undefined).2] at same
        cases same
  | tuple items =>
      rw [Value.isSimpleKey] at simple
      rw [Value.identity?, Option.map_eq_none_iff] at undefined
      have inner := itemsEqual_of_undefined items simple undefined
      cases k with
      | tuple others =>
          rw [Value.equal, Value.equal]
          exact inner others
      | object _ | frozen _ | schema _ _ =>
          exact ⟨by simp [Value.equal], Value.equal_of_entries?_none rfl rfl⟩
      | bool _ | int _ | float _ =>
          exact ⟨by simp [Value.equal],
            by simp [Value.equal, Number.equalsValue, Value.numeric?, Value.number?]⟩
      | _ => exact ⟨by simp [Value.equal], by simp [Value.equal]⟩
  | list _ | set _ | object _ | frozen _ | schema _ _ | rule _ | shared _ => cases simple
  | _ => cases undefined
termination_by structural n

theorem itemsEqual_of_undefined (ns : List Value) (simple : allSimpleKeys ns = true)
    (undefined : identities? ns = none) (ks : List Value) :
    itemsEqual ns ks = false ∧ itemsEqual ks ns = false := by
  match ns with
  | [] => cases undefined
  | n :: rest =>
      rw [allSimpleKeys, Bool.and_eq_true] at simple
      cases ks with
      | nil => exact ⟨rfl, rfl⟩
      | cons k more =>
          rw [itemsEqual, itemsEqual]
          cases own : n.identity? with
          | none =>
              have first := Value.not_equal_of_undefined n simple.1 own k
              rw [first.1, first.2]
              exact ⟨rfl, rfl⟩
          | some i =>
              rw [identities?, own] at undefined
              cases others : identities? rest with
              | none =>
                  have later := itemsEqual_of_undefined rest simple.2 others more
                  rw [later.1, later.2, Bool.and_false, Bool.and_false]
                  exact ⟨rfl, rfl⟩
              | some js =>
                  rw [others] at undefined
                  cases undefined
termination_by structural ns

end

/-- A key that is compared as keys are: it equals the same values behind it as in front of it, and
what equals it equals the same values as it. -/
structure Value.IsKey (n : Value) : Prop where
  symm (k : Value) : k.equal n = n.equal k
  alike {k : Value} (same : n.equal k = true) (l : Value) : k.equal l = n.equal l

namespace Value

variable {n m : Value}

theorem IsKey.of_known (known : n.identity?.isSome = true) : n.IsKey := by
  obtain ⟨i, identity⟩ := Option.isSome_iff_exists.mp known
  refine ⟨fun k => ?_, fun {k} same l => ?_⟩
  · rw [Bool.eq_iff_iff, equal_iff_of_identity?_right identity, equal_iff_of_identity? identity]
  · rw [equal_iff_of_identity? identity] at same
    rw [Bool.eq_iff_iff, equal_iff_of_identity? same, equal_iff_of_identity? identity]

/-- What can be a key is compared as keys are, also if it has no identity. -/
theorem IsKey.of_simple (simple : n.isSimpleKey = true) : n.IsKey := by
  cases identity : n.identity? with
  | some i => exact .of_known (by rw [identity]; rfl)
  | none =>
      have differs := not_equal_of_undefined n simple identity
      refine ⟨fun k => ?_, fun {k} same => ?_⟩
      · rw [(differs k).1, (differs k).2]
      · rw [(differs k).1] at same
        cases same

/-- A key that equals something equals itself. -/
theorem IsKey.self (key : n.IsKey) {k : Value} (same : k.equal n = true) : n.equal n = true := by
  have other : n.equal k = true := (key.symm k).symm.trans same
  rw [← key.alike other, same]

/-- The same keys stand in front of two keys that are equal. -/
theorem IsKey.alike_right (key : n.IsKey) (other : m.IsKey) (same : n.equal m = true) (k : Value) :
    k.equal m = k.equal n := by
  rw [other.symm, key.alike same, key.symm]

end Value

end DataContract
