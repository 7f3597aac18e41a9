/-
# The tests of an identifier as a pattern

The two layouts are those of two patterns that ignore case: hexadecimal digits are asked for in
lower case only, and a digit is written as itself. Ignoring case lets in the capitals of ASCII and
nothing more, since every character of a pattern comes before the small i.
-/

import DataContract.Pattern.Basic
import DataContract.Proofs.Pattern.WholeMatch
import DataContract.Proofs.Text.CaseFold
import DataContract.Value.Uuid

set_option autoImplicit false

namespace DataContract

namespace Pattern

/-- Where case is ignored, an early character is a member for the characters whose lower-case
form it is. -/
theorem ClassItem.has_char {own : Nat} (early : Text.IsEarly own) (c : Char) :
    (ClassItem.char own).has { ignoreCase := true } c = (c.toLower.toNat == own) := by
  rw [Bool.eq_iff_iff, beq_iff_eq, ← Text.mem_caseVariants_toLower c early]
  exact List.contains_iff_mem

/-- So are early characters from one to another. -/
theorem ClassItem.has_range {low high : Nat}
    (early : ∀ code, low ≤ code ∧ code ≤ high → Text.IsEarly code) (c : Char) :
    (ClassItem.range low high).has { ignoreCase := true } c =
      (low ≤ c.toLower.toNat && c.toLower.toNat ≤ high) := by
  have variants : ((Text.caseVariants c.toNat).any fun code => low ≤ code && code ≤ high) = true ↔
      low ≤ c.toLower.toNat ∧ c.toLower.toNat ≤ high := by
    rw [List.any_eq_true]
    simp only [Bool.and_eq_true, decide_eq_true_eq]
    constructor
    · rintro ⟨code, mem, own⟩
      rwa [(Text.mem_caseVariants_toLower c (early code own)).mp mem]
    · intro own
      exact ⟨_, (Text.mem_caseVariants_toLower c (early _ own)).mpr rfl, own⟩
  rw [Bool.eq_iff_iff, Bool.and_eq_true, decide_eq_true_eq, decide_eq_true_eq]
  exact variants

end Pattern

namespace Uuid

open Pattern

/-! ### The patterns -/

/-- The text of a pattern for hexadecimal digits, which braces count. -/
def hexText (count : Nat) : String := "[0-9a-f]\x7b" ++ toString count ++ "\x7d"

/-- The text of the pattern for the identifiers of a version. -/
def pattern : UuidVersion → String
  | .timeBased =>
    hexText 8 ++ "-" ++ hexText 4 ++ "-" ++ hexText 4 ++ "-" ++ hexText 4 ++ "-" ++ hexText 12
  | .random =>
    hexText 8 ++ "-" ++ hexText 4 ++ "-4" ++ hexText 3 ++ "-[89ab]" ++ hexText 3 ++ "-" ++
      hexText 12

/-- The class of the hexadecimal digits in lower case. -/
def hexItems : List ClassItem := [.range 0x30 0x39, .range 0x61 0x66]

/-- The digits of a random identifier's variant in lower case. -/
def variantCodes : List Nat := [0x38, 0x39, 0x61, 0x62]

/-- A number of hexadecimal digits as a pattern. -/
def hexTree (count : Nat) : Regex := .repeated ⟨count, some count, .more⟩ (.set false hexItems)

/-- A hyphen as a pattern. -/
def hyphenTree : Regex := .char 0x2d

/-- The tree of the pattern for the identifiers of a version. -/
def tree : UuidVersion → Regex
  | .timeBased => .sequence [hexTree 8, hyphenTree, hexTree 4, hyphenTree, hexTree 4, hyphenTree,
      hexTree 4, hyphenTree, hexTree 12]
  | .random => .sequence [hexTree 8, hyphenTree, hexTree 4, hyphenTree, .char 0x34, hexTree 3,
      hyphenTree, .set false (variantCodes.map .char), hexTree 3, hyphenTree, hexTree 12]

theorem compile_pattern (version : UuidVersion) :
    compile (pattern version) { ignoreCase := true } =
      .ok {
        source := pattern version, options := { ignoreCase := true }, tree := tree version } := by
  -- Equality of what a parser returns is not decidable because of the faults.
  have parsed : (parse (pattern version) { ignoreCase := true }).toOption =
      some (tree version, { ignoreCase := true }) := by
    cases version <;> decide +kernel
  rw [compile]
  cases own : parse (pattern version) { ignoreCase := true } with
  | error fault => simp [own, Except.toOption] at parsed
  | ok result =>
      rw [own] at parsed
      cases parsed
      rfl

/-! ### Their classes -/

theorem isHex_iff (c : Char) : isHex c = true ↔
    0x30 ≤ c.toLower.toNat ∧ c.toLower.toNat ≤ 0x39 ∨
      0x61 ≤ c.toLower.toNat ∧ c.toLower.toNat ≤ 0x66 := by
  have ranges : isHex c = true ↔
      (0x30 ≤ c.toNat ∧ c.toNat ≤ 0x39 ∨ 0x61 ≤ c.toNat ∧ c.toNat ≤ 0x66) ∨
        0x41 ≤ c.toNat ∧ c.toNat ≤ 0x46 := by
    simp only [isHex, Bool.or_eq_true, Bool.and_eq_true, decide_eq_true_eq]
    rfl
  rw [ranges]
  rcases Text.toNat_toLower c with ⟨⟨low, high⟩, lower⟩ | ⟨small, lower⟩
  · omega
  · rw [Text.IsCapital] at small
    omega

theorem isVariant_iff (c : Char) : isVariant c = true ↔ c.toLower.toNat ∈ variantCodes := by
  have codes : isVariant c = true ↔ c.toNat ∈ [0x38, 0x39, 0x61, 0x62, 0x41, 0x42] := by
    simp [isVariant, ← Char.toNat_inj]
  rw [codes, variantCodes]
  simp only [List.mem_cons, List.not_mem_nil, or_false]
  rcases Text.toNat_toLower c with ⟨⟨low, high⟩, lower⟩ | ⟨small, lower⟩
  · omega
  · rw [Text.IsCapital] at small
    omega

theorem takes_hexItems : ({ ignoreCase := true } : Options).takes false hexItems = isHex := by
  have early {low high : Nat} (small : high < 0x69) (apart : 0x5a < low ∨ high < 0x41) (code : Nat)
      (inside : low ≤ code ∧ code ≤ high) : Text.IsEarly code :=
    ⟨by omega, fun ⟨_, _⟩ => by omega⟩
  funext c
  rw [Options.takes, hexItems, List.any_cons, List.any_cons, List.any_nil,
    ClassItem.has_range (early (by decide) (by decide)),
    ClassItem.has_range (early (by decide) (by decide)), Bool.eq_iff_iff, isHex_iff]
  simp

theorem takes_chars {codes : List Nat} (early : ∀ code ∈ codes, Text.IsEarly code) (c : Char) :
    ({ ignoreCase := true } : Options).takes false (codes.map .char) c =
      codes.contains c.toLower.toNat := by
  have each : ∀ code ∈ codes, (ClassItem.char code).has { ignoreCase := true } c =
      (c.toLower.toNat == code) := fun code mem => ClassItem.has_char (early code mem) c
  rw [Options.takes, List.any_map, Bool.eq_iff_iff, List.contains_iff_mem, bne_iff_ne,
    Bool.ne_false_iff, List.any_eq_true]
  constructor
  · rintro ⟨code, mem, own⟩
    rw [Function.comp, each code mem, beq_iff_eq] at own
    rwa [own]
  · intro mem
    exact ⟨_, mem, by rw [Function.comp, each _ mem, beq_self_eq_true]⟩

theorem takes_variant :
    ({ ignoreCase := true } : Options).takes false (variantCodes.map .char) = isVariant := by
  funext c
  rw [takes_chars (by decide), Bool.eq_iff_iff, isVariant_iff, List.contains_iff_mem]

/-- A character that comes before the letters is taken as itself. -/
theorem takes_single {d : Char} (before : d.toNat < 0x41) :
    ({ ignoreCase := true } : Options).takes false [.char d.toNat] = (· == d) := by
  have early : ∀ code ∈ [d.toNat], Text.IsEarly code := by
    intro code mem
    obtain rfl := List.mem_singleton.mp mem
    exact ⟨by omega, fun ⟨_, _⟩ => by omega⟩
  funext c
  have taken := takes_chars early c
  rw [List.map_singleton] at taken
  rw [taken, Bool.eq_iff_iff, List.contains_iff_mem, List.mem_singleton, Char.toNat_inj,
    Text.toLower_eq_iff before, beq_iff_eq]

/-! ### The patterns and the layouts -/

theorem takesEach_hexTree (count : Nat) :
    (hexTree count).TakesEach { ignoreCase := true } (hexes count) := by
  have own := (Regex.takesEach_set takes_hexItems).repeated count
  rw [List.flatten_replicate_singleton] at own
  exact own

theorem takesEach_tree (version : UuidVersion) :
    (tree version).TakesEach { ignoreCase := true } (layout version) := by
  have hex := takesEach_hexTree
  have hyphen : hyphenTree.TakesEach { ignoreCase := true } [isHyphen] :=
    Regex.takesEach_set (takes_single (d := '-') (by decide))
  have four : (Regex.char 0x34).TakesEach { ignoreCase := true } [isVersionFour] :=
    Regex.takesEach_set (takes_single (d := '4') (by decide))
  have variants := Regex.takesEach_set takes_variant
  cases version with
  | timeBased =>
      exact Regex.takesEach_sequence <| .cons (hex 8) <| .cons hyphen <| .cons (hex 4) <|
        .cons hyphen <| .cons (hex 4) <| .cons hyphen <| .cons (hex 4) <| .cons hyphen <|
        .cons (hex 12) .nil
  | random =>
      exact Regex.takesEach_sequence <| .cons (hex 8) <| .cons hyphen <| .cons (hex 4) <|
        .cons hyphen <| .cons four <| .cons (hex 3) <| .cons hyphen <| .cons variants <|
        .cons (hex 3) <| .cons hyphen <| .cons (hex 12) .nil

theorem fits_iff_forall₂ (tests : List (Char → Bool)) (cs : List Char) :
    fits tests cs = true ↔ List.Forall₂ (fun test c => test c = true) tests cs := by
  induction tests generalizing cs with
  | nil => cases cs <;> simp [fits]
  | cons test tests ih => cases cs <;> simp [fits, ih]

/-- The identifiers of a version are the texts that its pattern matches as a whole. -/
theorem accepts_eq_matchesWhole (version : UuidVersion) (s : String) :
    accepts version s = (tree version).matchesWhole { ignoreCase := true } s := by
  rw [Bool.eq_iff_iff, (takesEach_tree version).matchesWhole_iff, accepts, fits_iff_forall₂]

end Uuid

end DataContract
