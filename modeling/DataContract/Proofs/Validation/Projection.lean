/-
# What a body holds

Putting declared entries first gives what is found under the names, in the order of the rules, and
after it the entries that are not declared, as they stood. So a body holds under every key that it
keeps what the record held, in whatever order. Where a schema drops the keys that it does not
declare, only declared ones are left. Taking the body of a body changes nothing, not even the order
of its keys, and where all keys are declared it makes no difference whether others are tolerated.
-/

import DataContract.Proofs.Validation.Frame
import DataContract.Validation.Body

set_option autoImplicit false

namespace DataContract.Schema

/-! ## Declared entries first -/

section Order

variable {rules : List Rule} (keys : ∀ r ∈ rules, r.name.IsKey)

include keys

/-- Putting declared entries first leaves what is found under a key. -/
theorem get?_orderEntries {n : Value} (own : n.IsKey) (entries : Entries) :
    (orderEntries rules entries).get? n = entries.get? n := by
  induction rules generalizing entries with
  | nil => rfl
  | cons r rest ih =>
      rw [List.forall_mem_cons] at keys
      rw [orderEntries]
      split
      next v found =>
        rw [Entries.get?, ih keys.2]
        split
        next same => rw [← found, Entries.get?_of_equal keys.1 own same]
        next differ => exact Entries.get?_erase_of_ne keys.1 (by simpa using differ) entries
      next => exact ih keys.2 entries

/-- Entries whose declared ones come first stay in that order. -/
theorem orderEntries_again (entries : Entries) :
    orderEntries rules (orderEntries rules entries) = orderEntries rules entries := by
  induction rules generalizing entries with
  | nil => rfl
  | cons r rest ih =>
      rw [List.forall_mem_cons] at keys
      cases found : entries.get? r.name with
      | some v =>
          have same : r.name.equal r.name = true := Entries.equal_self_of_get? keys.1 found
          have first : orderEntries (r :: rest) entries =
              (r.name, v) :: orderEntries rest (entries.erase r.name) := by
            rw [orderEntries, found]
          rw [first, orderEntries, Entries.get?, if_pos same]
          dsimp only
          rw [Entries.erase, if_pos same, ih keys.2]
      | none =>
          have passed : orderEntries (r :: rest) entries = orderEntries rest entries := by
            rw [orderEntries, found]
          have missing : (orderEntries rest entries).get? r.name = none :=
            (get?_orderEntries keys.2 keys.1 entries).trans found
          rw [passed, orderEntries, missing]
          exact ih keys.2 entries

end Order

/-- The keys of entries are there if declared ones are put first, or are names that were found. -/
theorem mem_keys_of_orderEntries {rules : List Rule} (keys : ∀ r ∈ rules, r.name.IsKey)
    {entries : Entries} {key : Value} (mem : key ∈ (orderEntries rules entries).keys) :
    (∃ r ∈ rules, r.name.equal key = true) ∨ key ∈ entries.keys := by
  induction rules generalizing entries with
  | nil => exact .inr mem
  | cons r rest ih =>
      rw [List.forall_mem_cons] at keys
      have later {entries : Entries} (mem : key ∈ (orderEntries rest entries).keys) :
          (∃ q ∈ r :: rest, q.name.equal key = true) ∨ key ∈ entries.keys :=
        (ih keys.2 mem).imp_left fun ⟨q, inRest, same⟩ => ⟨q, List.mem_cons_of_mem r inRest, same⟩
      rw [orderEntries] at mem
      split at mem
      next v found =>
        rw [Entries.keys_cons, List.mem_cons] at mem
        rcases mem with rfl | mem
        · exact .inl ⟨r, List.mem_cons_self, Entries.equal_self_of_get? keys.1 found⟩
        · exact (later mem).imp_right fun left =>
            ((Entries.erase_sublist entries r.name).map Prod.fst).subset left
      next => exact later mem

/-- What entries hold under the names of rules, in the order of the rules. -/
def declaredEntries (rules : List Rule) (entries : Entries) : Entries :=
  rules.filterMap fun r => (entries.get? r.name).map (r.name, ·)

theorem declaredEntries_cons (r : Rule) (rest : List Rule) (entries : Entries) :
    declaredEntries (r :: rest) entries =
      match entries.get? r.name with
      | some v => (r.name, v) :: declaredEntries rest entries
      | none => declaredEntries rest entries := by
  rw [declaredEntries, List.filterMap_cons]
  cases entries.get? r.name <;> rfl

/-- What is found alike under the names is held alike under them. -/
theorem declaredEntries_congr {rules : List Rule} {entries others : Entries}
    (alike : ∀ r ∈ rules, others.get? r.name = entries.get? r.name) :
    declaredEntries rules others = declaredEntries rules entries := by
  induction rules with
  | nil => rfl
  | cons r rest ih =>
      rw [List.forall_mem_cons] at alike
      rw [declaredEntries_cons, declaredEntries_cons, alike.1, ih alike.2]

theorem keys_declaredEntries (rules : List Rule) (entries : Entries) :
    (declaredEntries rules entries).keys =
      (rules.filter (entries.contains ·.name)).map (·.name) := by
  induction rules with
  | nil => rfl
  | cons r rest ih =>
      rw [declaredEntries_cons, List.filter_cons, Entries.contains]
      cases entries.get? r.name with
      | none => exact ih
      | some v => exact congrArg (r.name :: ·) ih

/-- If names are keys that differ, and each is found at most once, the declared entries come in
the order of the rules, and after them the others as they stood. -/
theorem orderEntries_eq {rules : List Rule} (keys : ∀ r ∈ rules, r.name.IsKey)
    (differ : rules.Pairwise fun r q => r.name.equal q.name = false) {entries : Entries}
    (once : ∀ r ∈ rules, entries.FoundOnce r.name) :
    orderEntries rules entries =
      declaredEntries rules entries ++ entries.filter fun e => !rules.any (·.name.equal e.1) := by
  induction rules generalizing entries with
  | nil => exact (List.filter_eq_self.mpr fun _ _ => rfl).symm
  | cons r rest ih =>
      rw [List.forall_mem_cons] at keys once
      rw [List.pairwise_cons] at differ
      have named (key : Value) : (r :: rest).any (·.name.equal key) =
          (key.equal r.name || rest.any (·.name.equal key)) := by
        rw [List.any_cons, keys.1.symm]
      rw [orderEntries, declaredEntries_cons]
      cases found : entries.get? r.name with
      | none =>
          have others : (entries.filter fun e => !(r :: rest).any (·.name.equal e.1)) =
              entries.filter fun e => !rest.any (·.name.equal e.1) := by
            refine List.filter_congr fun e mem => ?_
            rw [named, (Entries.get?_eq_none_iff entries r.name).mp found e mem, Bool.false_or]
          rw [others]
          exact ih keys.2 differ.2 once.2
      | some v =>
          -- The other names find what they found before the first rule took its entry away.
          have below : declaredEntries rest (entries.erase r.name) = declaredEntries rest entries :=
            declaredEntries_congr fun q mem =>
              Entries.get?_erase_of_ne keys.1 (differ.1 q mem) entries
          have others : (entries.erase r.name).filter (fun e => !rest.any (·.name.equal e.1)) =
              entries.filter fun e => !(r :: rest).any (·.name.equal e.1) := by
            rw [Entries.erase_eq_filter once.1, List.filter_filter]
            refine List.filter_congr fun e _ => ?_
            rw [named, Bool.not_or, Bool.and_comm]
          have once' : ∀ q ∈ rest, (entries.erase r.name).FoundOnce q.name := fun q mem =>
            (once.2 q mem).sublist (Entries.erase_sublist entries r.name)
          have later := ih keys.2 differ.2 once'
          rw [below, others] at later
          exact congrArg ((r.name, v) :: ·) later

/-! ## Bodies -/

variable {s : Schema}

/-- Whether a body keeps a key. -/
def keeps (s : Schema) (includeAll : Bool) (key : Value) : Bool :=
  s.declares key || includeAll || !s.flex

theorem keptEntries_eq (s : Schema) (includeAll : Bool) (entries : Entries) :
    s.keptEntries includeAll entries = entries.filter fun e => s.keeps includeAll e.1 := by
  have all : entries = entries.filter fun _ => true := (List.filter_eq_self.mpr fun _ _ => rfl).symm
  rw [keptEntries]
  simp only [keeps]
  cases s.flex <;> cases includeAll <;> simp [← all]

/-- A schema that drops keys keeps the declared ones. -/
theorem keptEntries_of_declared {entries : Entries}
    (declared : ∀ key ∈ entries.keys, s.declares key = true) (includeAll : Bool) :
    s.keptEntries includeAll entries = entries := by
  rw [keptEntries]
  split
  · rw [List.filter_eq_self]
    exact fun e mem => declared e.1 (List.mem_map_of_mem mem)
  · rfl

/-- Where all keys are declared a body keeps them all. -/
theorem project_of_declared {entries : Entries}
    (declared : ∀ key ∈ entries.keys, s.declares key = true) (options : BodyOptions) :
    s.project options entries =
      if options.ordered then orderEntries s.rules entries else entries := by
  simp only [project, keptEntries_of_declared declared]

/-- A schema that drops keys keeps only declared ones. -/
theorem declares_of_mem_keptEntries (flexible : s.flex = true) {entries : Entries} {key : Value}
    (mem : key ∈ (s.keptEntries false entries).keys) : s.declares key = true := by
  rw [keptEntries, flexible, Bool.not_false, Bool.and_self, if_pos rfl] at mem
  obtain ⟨e, inKept, rfl⟩ := List.mem_map.mp mem
  exact (List.mem_filter.mp inKept).2

/-- Where no undeclared key is there, or undeclared keys are dropped, only declared ones are
kept. -/
theorem declares_of_kept {includeAll : Bool} (only : s.flex = false ∨ includeAll = false)
    {entries : Entries}
    (strict : s.flex = false → ∀ key ∈ entries.keys, s.declares key = true) {key : Value}
    (mem : key ∈ (s.keptEntries includeAll entries).keys) : s.declares key = true := by
  cases flexible : s.flex with
  | true =>
      have drops : includeAll = false := by simpa [flexible] using only
      rw [drops] at mem
      exact declares_of_mem_keptEntries flexible mem
  | false =>
      have kept : s.keptEntries includeAll entries = entries := by
        simp [keptEntries, flexible]
      rw [kept] at mem
      exact strict flexible key mem

section Keys

variable (keys : ∀ r ∈ s.rules, r.name.IsKey)

include keys

theorem declares_of_equal {n k : Value} (own : n.IsKey) (same : k.equal n = true) :
    s.declares k = s.declares n := by
  have alike : ∀ r ∈ s.rules, r.name.equal k = r.name.equal n := by
    intro r mem
    rw [← (keys r mem).symm, own.alike ((own.symm k).symm.trans same), (keys r mem).symm]
  rw [declares, declares, Bool.eq_iff_iff, List.any_eq_true, List.any_eq_true]
  exact exists_congr fun r => and_congr_right fun mem => by rw [alike r mem]

/-- What is kept under a key is what the record held, and nothing under a key that is dropped. -/
theorem get?_keptEntries {n : Value} (own : n.IsKey) (includeAll : Bool) (entries : Entries) :
    (s.keptEntries includeAll entries).get? n =
      if s.keeps includeAll n then entries.get? n else none := by
  have alike (e : Value × Value) (same : e.1.equal n = true) :
      s.keeps includeAll e.1 = s.keeps includeAll n := by
    rw [keeps, keeps, declares_of_equal keys own same]
  rw [keptEntries_eq]
  split
  next kept => exact Entries.get?_filter fun e _ same => (alike e same).trans kept
  next dropped =>
    rw [Entries.get?_eq_none_iff]
    intro e mem
    rw [Bool.eq_false_iff]
    exact fun same => dropped ((alike e same).symm.trans (List.mem_filter.mp mem).2)

/-- A body holds under every key that it keeps what the record held. -/
theorem get?_project {n : Value} (own : n.IsKey) (options : BodyOptions) (entries : Entries) :
    (s.project options entries).get? n =
      if s.keeps options.includeAll n then entries.get? n else none := by
  have kept := get?_keptEntries keys own options.includeAll entries
  rw [project]
  split
  · rw [get?_orderEntries keys own, kept]
  · exact kept

/-- What is found under a name is kept. -/
theorem keeps_name {r : Rule} (mem : r ∈ s.rules) (includeAll : Bool) (entries : Entries) :
    (if s.keeps includeAll r.name then entries.get? r.name else none) = entries.get? r.name := by
  cases found : entries.get? r.name with
  | none => exact ite_self none
  | some v =>
      have own : s.declares r.name = true :=
        List.any_eq_true.mpr ⟨r, mem, Entries.equal_self_of_get? (keys r mem) found⟩
      rw [keeps, own, Bool.true_or, Bool.true_or, if_pos rfl]

/-- A body holds under a declared name what the record held. -/
theorem get?_project_name {r : Rule} (mem : r ∈ s.rules) (options : BodyOptions)
    (entries : Entries) : (s.project options entries).get? r.name = entries.get? r.name :=
  (get?_project keys (keys r mem) options entries).trans (keeps_name keys mem _ entries)

/-- If the keys that are kept are declared, so are those of the body. -/
theorem declares_of_mem_project {options : BodyOptions} {entries : Entries}
    (declared : ∀ key ∈ (s.keptEntries options.includeAll entries).keys, s.declares key = true)
    {key : Value} (mem : key ∈ (s.project options entries).keys) : s.declares key = true := by
  rw [project] at mem
  split at mem
  · exact (mem_keys_of_orderEntries keys mem).elim List.any_eq_true.mpr (declared key)
  · exact declared key mem

/-- The body of a body is the body. -/
theorem project_again (options : BodyOptions) (entries : Entries) :
    s.project options (s.project options entries) = s.project options entries := by
  have kept : s.keptEntries options.includeAll (s.project options entries) =
      s.project options entries := by
    by_cases drops : s.flex = true ∧ options.includeAll = false
    · apply keptEntries_of_declared
      intro key mem
      refine declares_of_mem_project keys (fun key inKept => ?_) mem
      rw [drops.2] at inKept
      exact declares_of_mem_keptEntries drops.1 inKept
    · rw [keptEntries, if_neg]
      simpa using drops
  rw [project, kept]
  split
  next ordered =>
    have first : s.project options entries =
        orderEntries s.rules (s.keptEntries options.includeAll entries) := by
      rw [project, if_pos ordered]
    rw [first, orderEntries_again keys]
  next => rfl

end Keys

end DataContract.Schema
