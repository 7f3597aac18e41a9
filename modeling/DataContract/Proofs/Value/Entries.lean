/-
# Looking up and writing entries

What is found under a key after something was written, for keys with an identity:
the written value under the same identity, and what was there under any other.
Writing keeps the keys in their places and adds at most one, at the end.
-/

import DataContract.Proofs.Value.Identity
import DataContract.Value.Entries

set_option autoImplicit false

namespace DataContract.Entries

variable {entries : Entries} {n m : Value} {i j : Identity}

/-- What is written under a key is found under it. -/
theorem get?_put_self (known : n.identity? = some i) (entries : Entries) (v : Value) :
    (entries.put n v).get? n = some v := by
  have same : n.equal n = true := (Value.equal_iff_of_identity? known n).mpr known
  induction entries with
  | nil => simp [put, get?, same]
  | cons e rest ih =>
      obtain ⟨k, old⟩ := e
      by_cases found : k.equal n = true
      · simp [put, get?, found]
      · simp [put, get?, found, ih]

/-- Writing under one key leaves what is found under another. -/
theorem get?_put_of_ne (known : n.identity? = some i) (other : m.identity? = some j)
    (differ : i ≠ j) (entries : Entries) (v : Value) :
    (entries.put n v).get? m = entries.get? m := by
  have apart (k : Value) (same : k.equal n = true) : k.equal m = false := by
    rw [Value.equal_iff_of_identity?_right known] at same
    rw [Bool.eq_false_iff, ne_eq, Value.equal_iff_of_identity?_right other, same]
    simpa using differ
  have new : n.equal m = false := by
    rw [Bool.eq_false_iff, ne_eq, Value.equal_iff_of_identity? known, other]
    simpa using differ.symm
  induction entries with
  | nil => simp [put, get?, new]
  | cons e rest ih =>
      obtain ⟨k, old⟩ := e
      by_cases found : k.equal n = true
      · simp [put, get?, found, apart k found]
      · simp [put, get?, found, ih]

/-- Writing what is found changes nothing. -/
theorem put_get?_self {v : Value} (found : entries.get? n = some v) :
    entries.put n v = entries := by
  induction entries with
  | nil => cases found
  | cons e rest ih =>
      obtain ⟨k, old⟩ := e
      rw [get?] at found
      rw [put]
      split at found
      next same => rw [if_pos same, Option.some.inj found]
      next differ => rw [if_neg differ, ih found]

/-- Writing twice under one key is writing once. -/
theorem put_put (known : n.identity?.isSome = true) (entries : Entries) (v w : Value) :
    (entries.put n v).put n w = entries.put n w := by
  have same : n.equal n = true := Value.equal_self known
  induction entries with
  | nil => simp [put, same]
  | cons e rest ih =>
      obtain ⟨k, old⟩ := e
      by_cases found : k.equal n = true
      · simp [put, found]
      · simp [put, found, ih]

/-- Values are written under two keys in either order, if one of the keys is there. -/
theorem put_comm (known : n.identity? = some i) (other : m.identity? = some j) (differ : i ≠ j)
    (there : (entries.get? n).isSome = true) (v w : Value) :
    (entries.put m w).put n v = (entries.put n v).put m w := by
  induction entries with
  | nil => cases there
  | cons e rest ih =>
      obtain ⟨k, old⟩ := e
      rw [get?] at there
      cases found : k.equal n with
      | true =>
          have apart : k.equal m = false := by
            rw [Value.equal_iff_of_identity?_right known] at found
            rw [Bool.eq_false_iff, ne_eq, Value.equal_iff_of_identity?_right other, found]
            simpa using differ
          simp [put, found, apart]
      | false =>
          rw [found] at there
          cases second : k.equal m with
          | true => simp [put, found, second]
          | false => simp [put, found, second, ih there]

theorem keys_cons (e : Value × Value) (rest : Entries) : keys (e :: rest) = e.1 :: keys rest :=
  rfl

theorem sizeOf_lt_of_mem {k v : Value} (mem : (k, v) ∈ entries) : sizeOf v < sizeOf entries := by
  have smaller := List.sizeOf_lt_of_mem mem
  rw [Prod.mk.sizeOf_spec] at smaller
  omega

/-- Writing under a key that is there keeps the keys, and otherwise adds it at the end. -/
theorem keys_put (entries : Entries) (n v : Value) :
    (entries.put n v).keys = if entries.contains n then entries.keys else entries.keys ++ [n] := by
  induction entries with
  | nil => simp [put, keys, contains, get?]
  | cons e rest ih =>
      obtain ⟨k, old⟩ := e
      by_cases found : k.equal n = true
      · simp [put, keys, contains, get?, found]
      · rw [put, if_neg found, keys_cons, keys_cons, ih, contains, contains, get?, if_neg found]
        split <;> rfl

theorem get?_eq_none_iff (entries : Entries) (n : Value) :
    entries.get? n = none ↔ ∀ e ∈ entries, e.1.equal n = false := by
  induction entries with
  | nil => simp [get?]
  | cons e rest ih =>
      obtain ⟨k, old⟩ := e
      rw [get?, List.forall_mem_cons, ← ih]
      cases k.equal n <;> simp

/-- Of two groups of entries the first one that has a key decides. -/
theorem get?_append (first second : Entries) (n : Value) :
    get? (first ++ second) n = (first.get? n).or (second.get? n) := by
  induction first with
  | nil => rfl
  | cons e rest ih =>
      obtain ⟨k, old⟩ := e
      rw [List.cons_append, get?, get?, ih]
      split <;> rfl

/-- A key that is missing goes to the end. -/
theorem put_of_get?_none (absent : entries.get? n = none) (v : Value) :
    entries.put n v = entries ++ [(n, v)] := by
  induction entries with
  | nil => rfl
  | cons e rest ih =>
      obtain ⟨k, old⟩ := e
      rw [get?] at absent
      rw [put]
      split at absent
      · cases absent
      next differ => rw [if_neg differ, ih absent, List.cons_append]

/-- What is found is the value of an entry. -/
theorem mem_of_get? {v : Value} (found : entries.get? n = some v) : ∃ k, (k, v) ∈ entries := by
  induction entries with
  | nil => cases found
  | cons e rest ih =>
      obtain ⟨k, old⟩ := e
      rw [get?] at found
      split at found
      · cases found
        exact ⟨k, List.mem_cons_self⟩
      · obtain ⟨key, mem⟩ := ih found
        exact ⟨key, List.mem_cons_of_mem _ mem⟩

/-- After writing, every value was there before or is the one that was written. -/
theorem mem_put {v : Value} {e : Value × Value} (mem : e ∈ entries.put n v) :
    e ∈ entries ∨ e.2 = v := by
  induction entries with
  | nil =>
      rw [put, List.mem_singleton] at mem
      exact .inr (by rw [mem])
  | cons first rest ih =>
      obtain ⟨k, old⟩ := first
      rw [put] at mem
      split at mem
      · rcases List.mem_cons.mp mem with rfl | kept
        · exact .inr rfl
        · exact .inl (List.mem_cons_of_mem _ kept)
      · rcases List.mem_cons.mp mem with rfl | later
        · exact .inl List.mem_cons_self
        · exact (ih later).imp (List.mem_cons_of_mem _) id

/-- Equal keys find the same. -/
theorem get?_of_equal (key : n.IsKey) (other : m.IsKey) (same : n.equal m = true)
    (entries : Entries) : entries.get? m = entries.get? n := by
  induction entries with
  | nil => rfl
  | cons e rest ih =>
      obtain ⟨k, v⟩ := e
      rw [get?, get?, key.alike_right other same, ih]

/-- What is found has an equal key, so the key that it is found under equals itself. -/
theorem equal_self_of_get? (key : n.IsKey) {v : Value} (found : entries.get? n = some v) :
    n.equal n = true := by
  induction entries with
  | nil => cases found
  | cons e rest ih =>
      obtain ⟨k, old⟩ := e
      rw [get?] at found
      split at found
      next same => exact key.self same
      next => exact ih found

/-- What is removed under one key leaves what is found under another. -/
theorem get?_erase_of_ne (key : n.IsKey) (differ : n.equal m = false) (entries : Entries) :
    (entries.erase n).get? m = entries.get? m := by
  induction entries with
  | nil => rfl
  | cons e rest ih =>
      obtain ⟨k, v⟩ := e
      rw [erase, get?]
      split
      next same =>
        rw [key.symm] at same
        rw [key.alike same, differ, if_neg Bool.false_ne_true]
      next => rw [get?, ih]

theorem erase_sublist (entries : Entries) (n : Value) :
    List.Sublist (entries.erase n) entries := by
  induction entries with
  | nil => exact .slnil
  | cons e rest ih =>
      obtain ⟨k, v⟩ := e
      rw [erase]
      split
      · exact List.sublist_cons_self _ rest
      · exact ih.cons_cons _

/-- No two of the keys equal one key. -/
def FoundOnce (entries : Entries) (n : Value) : Prop :=
  entries.keys.Pairwise fun k l => k.equal n = true → l.equal n = false

theorem foundOnce_cons (e : Value × Value) (rest : Entries) (n : Value) :
    FoundOnce (e :: rest) n ↔
      (∀ l ∈ rest.keys, e.1.equal n = true → l.equal n = false) ∧ rest.FoundOnce n := by
  rw [FoundOnce, keys_cons, List.pairwise_cons, FoundOnce]

theorem FoundOnce.sublist {others : Entries} (once : entries.FoundOnce n)
    (sub : List.Sublist others entries) : others.FoundOnce n :=
  List.Pairwise.sublist (sub.map Prod.fst) once

/-- A key that is found once is gone when it has been removed, and the other entries stay. -/
theorem erase_eq_filter (once : entries.FoundOnce n) :
    entries.erase n = entries.filter fun e => !e.1.equal n := by
  induction entries with
  | nil => rfl
  | cons e rest ih =>
      rw [foundOnce_cons] at once
      obtain ⟨k, v⟩ := e
      rw [erase]
      split
      next same =>
        have others : rest.filter (fun e => !e.1.equal n) = rest := by
          rw [List.filter_eq_self]
          intro e mem
          rw [once.1 e.1 (List.mem_map_of_mem mem) same, Bool.not_false]
        rw [List.filter_cons_of_neg (by simp [same]), others]
      next differ => rw [List.filter_cons_of_pos (by simpa using differ), ih once.2]

/-- What is found under a key is found among the entries that are kept, if those under that
key are. -/
theorem get?_filter {keep : Value × Value → Bool}
    (kept : ∀ e ∈ entries, e.1.equal n = true → keep e = true) :
    get? (entries.filter keep) n = entries.get? n := by
  induction entries with
  | nil => rfl
  | cons e rest ih =>
      rw [List.forall_mem_cons] at kept
      have later := ih kept.2
      obtain ⟨k, v⟩ := e
      rw [get?]
      split
      next same => rw [List.filter_cons_of_pos (kept.1 same), get?, if_pos same]
      next other =>
        rw [List.filter_cons]
        split
        · rw [get?, if_neg other, later]
        · exact later

end DataContract.Entries
