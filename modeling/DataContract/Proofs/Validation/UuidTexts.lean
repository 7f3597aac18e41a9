/-
# Identifiers are the texts of numbers

A number of 128 bits has one canonical text: its 32 hexadecimal digits in lower case, with hyphens
that leave groups of 8, 4, 4, 4 and 12. The identifiers are these texts up to case, and those of the
random kind are told by six bits of the number. So an identifier stands for one number, and
different numbers have different identifiers.
-/

import DataContract.Proofs.Text.Hexadecimal
import DataContract.Proofs.Validation.UuidPatterns
import DataContract.Validation.Checks

set_option autoImplicit false

namespace DataContract.Uuid

open Text (hexDigit hexDigits)

/-! ### Groups -/

section Groups

variable {α β : Type} {separator x : α} {sizes : List Nat} {xs ys : List α}

/-- Puts a separator behind each group of elements but the last, which has no size of its own. -/
def grouped (separator : α) : List Nat → List α → List α
  | [], xs => xs
  | size :: sizes, xs => xs.take size ++ separator :: grouped separator sizes (xs.drop size)

theorem map_grouped (f : α → β) (separator : α) (sizes : List Nat) (xs : List α) :
    (grouped separator sizes xs).map f = grouped (f separator) sizes (xs.map f) := by
  induction sizes generalizing xs with
  | nil => rfl
  | cons size sizes ih => simp [grouped, ih, List.map_take, List.map_drop]

theorem length_grouped (separator : α) (sizes : List Nat) (xs : List α) :
    (grouped separator sizes xs).length = xs.length + sizes.length := by
  induction sizes generalizing xs with
  | nil => rfl
  | cons size sizes ih =>
      simp only [grouped, List.length_append, List.length_take, List.length_cons, ih,
        List.length_drop]
      omega

theorem mem_of_mem_grouped (mem : x ∈ grouped separator sizes xs) : x = separator ∨ x ∈ xs := by
  induction sizes generalizing xs with
  | nil => exact .inr mem
  | cons size sizes ih =>
      rcases List.mem_append.mp mem with mem | mem
      · exact .inr (List.mem_of_mem_take mem)
      · rcases List.mem_cons.mp mem with same | mem
        · exact .inl same
        · exact (ih mem).imp_right List.mem_of_mem_drop

/-- The groups say which elements they are made of. -/
theorem grouped_inj (length : xs.length = ys.length)
    (same : grouped separator sizes xs = grouped separator sizes ys) : xs = ys := by
  induction sizes generalizing xs ys with
  | nil => exact same
  | cons size sizes ih =>
      obtain ⟨front, back⟩ := List.append_inj same (by simp [length])
      have rest := ih (by simp [length]) (List.cons.inj back).2
      rw [← List.take_append_drop size xs, front, rest, List.take_append_drop]

end Groups

/-! ### Tests in groups -/

section Tests

variable {tests more : List (Char → Bool)} {cs ds : List Char}

theorem length_of_fits (own : fits tests cs = true) : tests.length = cs.length :=
  ((fits_iff_forall₂ tests cs).mp own).length_eq

/-- What holds of all that passes any of the tests holds of a text that passes them. -/
theorem forall_of_fits {P : Char → Prop} (each : ∀ test ∈ tests, ∀ c, test c = true → P c)
    (own : fits tests cs = true) : ∀ c ∈ cs, P c := by
  rw [fits_iff_forall₂] at own
  induction own with
  | nil => exact List.forall_mem_nil P
  | cons head _ ih =>
      rw [List.forall_mem_cons] at each ⊢
      exact ⟨each.1 _ head, ih each.2⟩

theorem fits_append (length : tests.length = cs.length) :
    fits (tests ++ more) (cs ++ ds) = (fits tests cs && fits more ds) := by
  induction tests generalizing cs with
  | nil =>
      obtain rfl := List.length_eq_zero_iff.mp length.symm
      simp [fits]
  | cons test tests ih =>
      cases cs with
      | nil => cases length
      | cons c cs => simp [fits, ih (Nat.succ.inj length), Bool.and_assoc]

/-- Where no test tells the case of a letter, a text passes them in any case. -/
theorem fits_toLower (blind : ∀ test ∈ tests, ∀ c, test c.toLower = test c) (cs : List Char) :
    fits tests (cs.map Char.toLower) = fits tests cs := by
  induction tests generalizing cs with
  | nil => cases cs <;> rfl
  | cons test tests ih =>
      rw [List.forall_mem_cons] at blind
      cases cs with
      | nil => rfl
      | cons c cs => rw [List.map_cons, fits, fits, blind.1, ih blind.2]

theorem exists_of_fits_append (own : fits (tests ++ more) cs = true) :
    ∃ front back, cs = front ++ back ∧ fits tests front = true ∧ fits more back = true := by
  have each := ((fits_iff_forall₂ (tests ++ more) cs).mp own).flip
  refine ⟨cs.take tests.length, cs.drop tests.length, (List.take_append_drop _ cs).symm, ?_, ?_⟩
  · exact (fits_iff_forall₂ _ _).mpr (List.forall₂_take_append _ _ _ each).flip
  · exact (fits_iff_forall₂ _ _).mpr (List.forall₂_drop_append _ _ _ each).flip

/-- The hyphens of a text meet the tests for them, and the rest is left to the other tests. -/
theorem fits_grouped (sizes : List Nat) (length : tests.length = cs.length) :
    fits (grouped isHyphen sizes tests) (grouped '-' sizes cs) = fits tests cs := by
  induction sizes generalizing tests cs with
  | nil => rfl
  | cons size sizes ih =>
      have front : (tests.take size).length = (cs.take size).length := by simp [length]
      rw [grouped, grouped, fits_append front, fits, ih (by simp [length]),
        show isHyphen '-' = true from rfl, Bool.true_and, ← fits_append front,
        List.take_append_drop, List.take_append_drop]

theorem exists_of_fits_grouped {sizes : List Nat} (enough : sizes.sum ≤ tests.length)
    (own : fits (grouped isHyphen sizes tests) cs = true) :
    ∃ digits, fits tests digits = true ∧ cs = grouped '-' sizes digits := by
  -- Each group has its full size, so that taking the digits together does not shift the hyphens.
  induction sizes generalizing tests cs with
  | nil => exact ⟨cs, own, rfl⟩
  | cons size sizes ih =>
      rw [List.sum_cons] at enough
      obtain ⟨front, back, rfl, hf, hb⟩ := exists_of_fits_append own
      cases back with
      | nil => cases hb
      | cons c back =>
          rw [fits, Bool.and_eq_true] at hb
          obtain rfl : c = '-' := eq_of_beq hb.1
          obtain ⟨digits, hd, rfl⟩ := ih (by rw [List.length_drop]; omega) hb.2
          have length : front.length = size := by
            rw [← length_of_fits hf, List.length_take]
            omega
          refine ⟨front ++ digits, ?_, ?_⟩
          · rw [← List.take_append_drop size tests, fits_append (length_of_fits hf), hf, hd]
            rfl
          · rw [grouped, List.take_left' length, List.drop_left' length]

end Tests

/-! ### The tests of an identifier -/

/-- The sizes of the groups of digits, but for the last. -/
def sizes : List Nat := [8, 4, 4, 4]

/-- The tests for the digits of an identifier. -/
def digitTests : UuidVersion → List (Char → Bool)
  | .timeBased => hexes 32
  | .random => hexes 12 ++ isVersionFour :: (hexes 3 ++ isVariant :: hexes 15)

theorem layout_eq_grouped (version : UuidVersion) :
    layout version = grouped isHyphen sizes (digitTests version) := by
  cases version <;> rfl

variable {version : UuidVersion} {test : Char → Bool}

theorem length_digitTests (version : UuidVersion) : (digitTests version).length = 32 := by
  cases version <;> rfl

theorem mem_digitTests (mem : test ∈ digitTests version) :
    test = isHex ∨ test = isVersionFour ∨ test = isVariant := by
  cases version with
  | timeBased => exact .inl (List.eq_of_mem_replicate mem)
  | random =>
      simp only [digitTests, hexes, List.mem_append, List.mem_cons, List.mem_replicate] at mem
      tauto

/-- What passes a test for a digit is a hexadecimal digit. -/
theorem isHex_of_digitTest (mem : test ∈ digitTests version) {c : Char} (own : test c = true) :
    isHex c = true := by
  rcases mem_digitTests mem with rfl | rfl | rfl
  · exact own
  · obtain rfl : c = '4' := eq_of_beq own
    rfl
  · rw [isVariant_iff, variantCodes] at own
    rw [isHex_iff]
    simp only [List.mem_cons, List.not_mem_nil, or_false] at own
    omega

theorem digitTest_toLower (mem : test ∈ digitTests version) (c : Char) :
    test c.toLower = test c := by
  rw [Bool.eq_iff_iff]
  rcases mem_digitTests mem with rfl | rfl | rfl
  · rw [isHex_iff, isHex_iff, Char.toLower_toLower_eq_toLower]
  · rw [isVersionFour, isVersionFour, beq_iff_eq, beq_iff_eq, Text.toLower_eq_iff (by decide)]
  · rw [isVariant_iff, isVariant_iff, Char.toLower_toLower_eq_toLower]

theorem layoutTest_toLower (mem : test ∈ layout version) (c : Char) :
    test c.toLower = test c := by
  rw [layout_eq_grouped] at mem
  rcases mem_of_mem_grouped mem with rfl | mem
  · rw [Bool.eq_iff_iff, isHyphen, isHyphen, beq_iff_eq, beq_iff_eq,
      Text.toLower_eq_iff (by decide)]
  · exact digitTest_toLower mem c

theorem isSome_hexValue? (c : Char) : (Text.hexValue? c).isSome = isHex c := by
  rw [Text.hexValue?, Text.isAsciiDigit, isHex]
  split
  · simp [*]
  · split
    · simp [*]
    · split <;> simp [*]

theorem isHex_hexDigit {v : Nat} (small : v < 16) : isHex (hexDigit v) = true := by
  rw [← isSome_hexValue?, Text.hexValue?_hexDigit small]
  rfl

theorem mem_of_isHex {c : Char} (own : isHex c = true) :
    c ∈ "0123456789abcdefABCDEF".toList := by
  have codes : ∀ code < 0x67, isHex (Char.ofNat code) = true →
      Char.ofNat code ∈ "0123456789abcdefABCDEF".toList := by decide
  have less : c.toNat < 0x67 := by
    rw [isHex_iff] at own
    rcases Text.toNat_toLower c with ⟨-, lower⟩ | ⟨-, lower⟩ <;> omega
  rw [← Char.ofNat_toNat c] at own ⊢
  exact codes c.toNat less own

/-- Tests for hexadecimal digits are met by those of any number. -/
theorem fits_hexes_append (front back n : Nat) (more : List (Char → Bool)) :
    fits (hexes front ++ more) (hexDigits (front + back) n) = fits more (hexDigits back n) := by
  induction front with
  | zero => rw [Nat.zero_add, hexes, List.replicate_zero, List.nil_append]
  | succ front ih =>
      have shape : front + 1 + back = 1 + (front + back) := by omega
      rw [shape, Text.hexDigits_cons, hexes, List.replicate_succ, List.cons_append, fits,
        isHex_hexDigit (Nat.mod_lt _ (by decide)), Bool.true_and]
      exact ih

/-! ### Numbers and their texts -/

/-- The canonical text of a number, in lower case. -/
def canonicalText (n : BitVec 128) : List Char := grouped '-' sizes (hexDigits 32 n.toNat)

/-- A text denotes a number if it is the number's canonical text up to case. -/
def Denotes (s : String) (n : BitVec 128) : Prop := s.toList.map Char.toLower = canonicalText n

/-- Two texts are equal up to the case of the letters of ASCII. -/
def SameUpToCase (s t : String) : Prop := s.toList.map Char.toLower = t.toList.map Char.toLower

/-- The digit that tells the version of an identifier. -/
def versionDigit (n : BitVec 128) : BitVec 4 := n.extractLsb' 76 4

/-- The bits that tell the variant of an identifier. -/
def variantBits (n : BitVec 128) : BitVec 2 := n.extractLsb' 62 2

theorem canonicalText_inj {m n : BitVec 128} (same : canonicalText m = canonicalText n) :
    m = n := by
  have digits := grouped_inj (by rw [Text.length_hexDigits, Text.length_hexDigits]) same
  exact BitVec.eq_of_toNat_eq (Text.hexDigits_inj m.isLt n.isLt digits)

/-- An identifier denotes the number that its digits write. -/
theorem exists_denotes {s : String} (own : accepts version s = true) : ∃ n, Denotes s n := by
  rw [accepts, layout_eq_grouped] at own
  have enough : sizes.sum ≤ (digitTests version).length := by
    rw [length_digitTests]
    decide
  obtain ⟨digits, each, shape⟩ := exists_of_fits_grouped enough own
  have hex : ∀ c ∈ digits, (Text.hexValue? c).isSome = true := fun c mem => by
    rw [isSome_hexValue?]
    exact forall_of_fits (fun test own c => isHex_of_digitTest own) each c mem
  obtain ⟨less, written⟩ := Text.hexDigits_numberIn hex
  rw [← length_of_fits each, length_digitTests] at less written
  refine ⟨BitVec.ofNatLT (Text.numberIn 16 digits) less, ?_⟩
  rw [Denotes, canonicalText, BitVec.toNat_ofNatLT, written, shape, map_grouped]
  rfl

/-- A text that denotes a number is an identifier if the number's digits pass the tests. -/
theorem accepts_of_denotes {s : String} {n : BitVec 128} (own : Denotes s n) :
    accepts version s = fits (digitTests version) (hexDigits 32 n.toNat) := by
  have length : (digitTests version).length = (hexDigits 32 n.toNat).length := by
    rw [length_digitTests, Text.length_hexDigits]
  rw [accepts, ← fits_toLower (fun test mem => layoutTest_toLower mem), own, canonicalText,
    layout_eq_grouped, fits_grouped sizes length]

theorem accepts_iff (version : UuidVersion) (s : String) : accepts version s = true ↔
    ∃ n, Denotes s n ∧ fits (digitTests version) (hexDigits 32 n.toNat) = true := by
  constructor
  · intro own
    obtain ⟨n, denotes⟩ := exists_denotes own
    exact ⟨n, denotes, accepts_of_denotes denotes ▸ own⟩
  · rintro ⟨n, denotes, own⟩
    rw [accepts_of_denotes denotes, own]

/-! ### The bits of a random identifier -/

theorem isVersionFour_hexDigit {v : Nat} (small : v < 16) :
    isVersionFour (hexDigit v) = true ↔ v = 4 := by
  have digits : ∀ v < 16, isVersionFour (hexDigit v) = true ↔ v = 4 := by decide
  exact digits v small

theorem isVariant_hexDigit {v : Nat} (small : v < 16) :
    isVariant (hexDigit v) = true ↔ v / 4 = 2 := by
  have digits : ∀ v < 16, isVariant (hexDigit v) = true ↔ v / 4 = 2 := by decide
  exact digits v small

theorem versionDigit_eq_iff (n : BitVec 128) :
    versionDigit n = 4#4 ↔ n.toNat / 16 ^ 19 % 16 = 4 := by
  rw [versionDigit, ← BitVec.toNat_inj, BitVec.extractLsb'_toNat, Nat.shiftRight_eq_div_pow]
  rfl

theorem variantBits_eq_iff (n : BitVec 128) :
    variantBits n = 0b10#2 ↔ n.toNat / 16 ^ 15 % 16 / 4 = 2 := by
  rw [variantBits, ← BitVec.toNat_inj, BitVec.extractLsb'_toNat, Nat.shiftRight_eq_div_pow]
  have value : (0b10#2).toNat = 2 := rfl
  rw [value]
  omega

theorem fits_timeBased (n : BitVec 128) :
    fits (digitTests .timeBased) (hexDigits 32 n.toNat) = true := by
  rw [digitTests, ← List.append_nil (hexes 32), fits_hexes_append 32 0]
  rfl

/-- Of the digits of a random identifier, one is its version and another begins with its variant. -/
theorem fits_random_iff (n : BitVec 128) :
    fits (digitTests .random) (hexDigits 32 n.toNat) = true ↔
      versionDigit n = 4#4 ∧ variantBits n = 0b10#2 := by
  -- The digits before the version, between it and the variant, and after that are free.
  rw [digitTests, fits_hexes_append 12 20, Text.hexDigits_cons 19, fits, fits_hexes_append 3 16,
    Text.hexDigits_cons 15, fits, ← List.append_nil (hexes 15), fits_hexes_append 15 0,
    show fits [] (hexDigits 0 n.toNat) = true from rfl, Bool.and_true, Bool.and_eq_true,
    isVersionFour_hexDigit (Nat.mod_lt _ (by decide)),
    isVariant_hexDigit (Nat.mod_lt _ (by decide)), versionDigit_eq_iff, variantBits_eq_iff]

/-! ### The kinds of identifiers -/

variable {s t : String} {m n : BitVec 128}

/-- A text that denotes a number has 36 characters, which are hyphens and hexadecimal digits. -/
theorem Denotes.characters (own : Denotes s n) : s.length = 36 ∧
    ∀ c ∈ s.toList, c = '-' ∨ c ∈ "0123456789abcdefABCDEF".toList := by
  constructor
  · have length := congrArg List.length own
    rwa [List.length_map, String.length_toList, canonicalText, length_grouped,
      Text.length_hexDigits] at length
  · intro c mem
    have lower : c.toLower ∈ canonicalText n := own ▸ List.mem_map_of_mem mem
    rcases mem_of_mem_grouped lower with hyphen | digit
    · exact .inl ((Text.toLower_eq_iff (by decide)).mp hyphen)
    · obtain ⟨v, small, same⟩ := Text.exists_of_mem_hexDigits digit
      have hex := isHex_hexDigit small
      rw [← same, isHex_iff, Char.toLower_toLower_eq_toLower, ← isHex_iff] at hex
      exact .inr (mem_of_isHex hex)

/-- Numbers are equal exactly if their texts are, up to case. -/
theorem Denotes.eq_iff (hs : Denotes s m) (ht : Denotes t n) : m = n ↔ SameUpToCase s t := by
  rw [Denotes] at hs ht
  rw [SameUpToCase, hs, ht]
  exact ⟨congrArg canonicalText, canonicalText_inj⟩

theorem accepts_congr (version : UuidVersion) (same : SameUpToCase s t) :
    accepts version s = accepts version t := by
  have blind := fits_toLower fun test (mem : test ∈ layout version) => layoutTest_toLower mem
  rw [accepts, accepts, ← blind, same, blind]

/-- The time-based kind accepts exactly the canonical texts of numbers, up to case, and the random
kind those among them whose number has the version 4 and the variant bits 10. So the random kind is
part of the other, such a text has 36 characters and no others than hyphens and digits, the case of
letters does not matter, and two texts denote the same number if they are equal up to case, and only
then. The pattern of each kind matches what the kind accepts. -/
theorem fitsShape_canonical :
    (∀ s, (TypeSpec.scalar (.uuid .timeBased)).fitsShape (.text s) = .ok true ↔
      ∃ n, Denotes s n) ∧
    (∀ s, (TypeSpec.scalar (.uuid .random)).fitsShape (.text s) = .ok true ↔
      ∃ n, Denotes s n ∧ versionDigit n = 4#4 ∧ variantBits n = 0b10#2) ∧
    (∀ s, (TypeSpec.scalar (.uuid .random)).fitsShape (.text s) = .ok true →
      (TypeSpec.scalar (.uuid .timeBased)).fitsShape (.text s) = .ok true) ∧
    (∀ s n, Denotes s n → s.length = 36 ∧
      ∀ c ∈ s.toList, c = '-' ∨ c ∈ "0123456789abcdefABCDEF".toList) ∧
    (∀ version s t, SameUpToCase s t → (TypeSpec.scalar (.uuid version)).fitsShape (.text s) =
      (TypeSpec.scalar (.uuid version)).fitsShape (.text t)) ∧
    (∀ s t m n, Denotes s m → Denotes t n → (m = n ↔ SameUpToCase s t)) ∧
    (∀ version, ∃ p, Pattern.compile (pattern version) { ignoreCase := true } = .ok p ∧
      ∀ s, (TypeSpec.scalar (.uuid version)).fitsShape (.text s) =
        .ok (p.tree.matchesWhole p.options s)) := by
  have fits (version : UuidVersion) (s : String) :
      (TypeSpec.scalar (.uuid version)).fitsShape (.text s) = .ok (accepts version s) := rfl
  have timeBased (s : String) : accepts .timeBased s = true ↔ ∃ n, Denotes s n := by
    simp [accepts_iff, fits_timeBased]
  have random (s : String) : accepts .random s = true ↔
      ∃ n, Denotes s n ∧ versionDigit n = 4#4 ∧ variantBits n = 0b10#2 := by
    simp only [accepts_iff, fits_random_iff]
  simp only [fits, Except.ok.injEq]
  refine ⟨timeBased, random, fun s own => ?_, fun s n own => own.characters,
    fun version s t => accepts_congr version, fun s t m n => Denotes.eq_iff,
    fun version => ⟨_, compile_pattern version, accepts_eq_matchesWhole version⟩⟩
  obtain ⟨n, denotes, -⟩ := (random s).mp own
  exact (timeBased s).mpr ⟨n, denotes⟩

/-- A random identifier in mixed case, and a time-based one whose number differs from it in one bit
of the version. -/
theorem fitsShape_mixedCase :
    Denotes "123E4567-e89B-42d3-A456-426614174000" 0x123e4567e89b42d3a456426614174000#128 ∧
    Denotes "123e4567-e89b-52d3-a456-426614174000" 0x123e4567e89b52d3a456426614174000#128 ∧
    (TypeSpec.scalar (.uuid .random)).fitsShape (.text "123E4567-e89B-42d3-A456-426614174000") =
      .ok true ∧
    (TypeSpec.scalar (.uuid .timeBased)).fitsShape (.text "123E4567-e89B-42d3-A456-426614174000") =
      .ok true ∧
    ¬ SameUpToCase "123E4567-e89B-42d3-A456-426614174000" "123e4567-e89b-52d3-a456-426614174000" ∧
    (TypeSpec.scalar (.uuid .random)).fitsShape (.text "123e4567-E89B-42D3-a456-426614174000") =
      .ok true := by
  obtain ⟨-, random, included, -, uncased, same, -⟩ := fitsShape_canonical
  have own : Denotes "123E4567-e89B-42d3-A456-426614174000"
      0x123e4567e89b42d3a456426614174000#128 := by unfold Denotes; decide +kernel
  have other : Denotes "123e4567-e89b-52d3-a456-426614174000"
      0x123e4567e89b52d3a456426614174000#128 := by unfold Denotes; decide +kernel
  have accepted := (random _).mpr ⟨_, own, by decide, by decide⟩
  refine ⟨own, other, accepted, included _ accepted, ?_, ?_⟩
  · exact mt (same _ _ _ _ own other).mpr (by decide)
  · exact (uncased .random _ _ (by unfold SameUpToCase; decide +kernel)).trans accepted

end DataContract.Uuid
