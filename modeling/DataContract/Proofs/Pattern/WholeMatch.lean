/-
# Patterns of single characters in a row

Some patterns leave no choice: classes of characters one after another, and repetitions with an
exact count. Such a pattern takes one character after another, each by a test of its own, and it
never goes back. So it matches the whole of a text exactly if the characters pass the tests one by
one and none is missing or left.
-/

import DataContract.Pattern.Matcher
import Mathlib.Data.List.Forall2

set_option autoImplicit false

namespace DataContract.Pattern

/-- Whether a pattern matches the whole of a text. -/
def Regex.matchesWhole (o : Options) (r : Regex) (s : String) : Bool :=
  (r.run o ⟨[], s.toList, []⟩ fun p => if p.rest.isEmpty then some p else none).isSome

/-- Takes characters one after another, each of which passes a test. -/
def Position.takeEach : List (Char → Bool) → Position → Continuation → Option Position
  | [], p, k => k p
  | test :: tests, p, k => p.take test fun q => takeEach tests q k

/-- A pattern takes characters by the given tests, and this is all it does. -/
def Regex.TakesEach (o : Options) (r : Regex) (tests : List (Char → Bool)) : Prop :=
  ∀ (p : Position) (k : Continuation), r.run o p k = p.takeEach tests k

namespace Position

variable (p : Position) (k : Continuation)

theorem takeEach_append (first second : List (Char → Bool)) :
    p.takeEach (first ++ second) k = p.takeEach first fun q => q.takeEach second k := by
  induction first generalizing p with
  | nil => rfl
  | cons test first ih => simp only [List.cons_append, takeEach, ih]

/-- All characters are taken exactly if they pass the tests, which are as many. -/
theorem takeEach_to_end (tests : List (Char → Bool)) :
    (p.takeEach tests fun q => if q.rest.isEmpty then some q else none).isSome = true ↔
      List.Forall₂ (fun test c => test c = true) tests p.rest := by
  induction tests generalizing p with
  | nil =>
      rw [List.forall₂_nil_left_iff]
      cases shape : p.rest <;> simp [takeEach, shape]
  | cons test tests ih =>
      rw [takeEach, take]
      split
      next c rest shape =>
        split
        next pass =>
          rw [ih, shape, List.forall₂_cons]
          simp [pass]
        next fail => simp [shape, fail]
      next shape => simp [shape]

end Position

namespace Regex

variable {o : Options}

theorem takesEach_empty : Regex.empty.TakesEach o [] := fun _ _ => rfl

theorem takesEach_set {negated : Bool} {items : List ClassItem} {test : Char → Bool}
    (own : o.takes negated items = test) : (Regex.set negated items).TakesEach o [test] := by
  subst own
  exact fun _ _ => rfl

theorem TakesEach.seq {first second : Regex} {tests more : List (Char → Bool)}
    (hf : first.TakesEach o tests) (hs : second.TakesEach o more) :
    (Regex.seq first second).TakesEach o (tests ++ more) := by
  intro p k
  rw [run, hf, Position.takeEach_append]
  congr
  funext q
  exact hs q k

/-- Patterns in a row take characters in a row. -/
theorem takesEach_sequence {rs : List Regex} {parts : List (List (Char → Bool))}
    (each : List.Forall₂ (·.TakesEach o ·) rs parts) :
    (Regex.sequence rs).TakesEach o parts.flatten := by
  induction each with
  | nil => exact takesEach_empty
  | @cons r tests rs parts hr later ih =>
      cases later with
      | nil => simpa [sequence] using hr
      | cons hnext later => exact hr.seq ih

/-- With an exact count the rounds run as often, and the bound on them is not met. -/
theorem TakesEach.rounds {body : Regex} {tests : List (Char → Bool)}
    (hb : body.TakesEach o tests) (k : Continuation) {count : Nat} (last : Option Nat)
    {done left bound : Nat} (total : done + left = count) (enough : left < bound) (p : Position) :
    rounds ⟨count, some count, .more⟩ (body.run o) k bound done last p =
      p.takeEach (List.replicate left tests).flatten k := by
  induction left generalizing done bound p with
  | zero =>
      obtain ⟨bound, rfl⟩ := Nat.exists_eq_add_one_of_ne_zero (Nat.ne_of_gt enough)
      obtain rfl : done = count := total
      simp [Pattern.rounds, Position.takeEach]
  | succ left ih =>
      obtain ⟨bound, rfl⟩ :=
        Nat.exists_eq_add_one_of_ne_zero (Nat.ne_of_gt (Nat.zero_lt_of_lt enough))
      have more : done < count := by omega
      rw [Pattern.rounds]
      simp only [if_pos more, List.replicate_succ, List.flatten_cons, Position.takeEach_append]
      rw [hb]
      congr
      funext q
      exact ih (by omega) (by omega) q

theorem TakesEach.repeated {body : Regex} {tests : List (Char → Bool)}
    (hb : body.TakesEach o tests) (count : Nat) :
    (Regex.repeated ⟨count, some count, .more⟩ body).TakesEach o
      (List.replicate count tests).flatten := by
  intro p k
  rw [run]
  have enough : count < count + p.rest.length + 2 := by omega
  exact hb.rounds k none (Nat.zero_add count) enough p

/-- A pattern that leaves no choice matches a text exactly if the characters pass its tests. -/
theorem TakesEach.matchesWhole_iff {r : Regex} {tests : List (Char → Bool)}
    (hr : r.TakesEach o tests) (s : String) : r.matchesWhole o s = true ↔
      List.Forall₂ (fun test c => test c = true) tests s.toList := by
  rw [matchesWhole, hr]
  exact Position.takeEach_to_end _ tests

end Regex

end DataContract.Pattern
