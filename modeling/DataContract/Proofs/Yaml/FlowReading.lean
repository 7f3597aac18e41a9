/-
# Reading values between brackets

A text is read as a value if, wherever it stands, reading leads over it to what follows
and the same tokens come out. This is shown for scalars first. A list of parts between
brackets is then read as such a value, part by part, so the reading of a value follows
the way in which it was written.
-/

import DataContract.Proofs.Yaml.TokenReading

set_option autoImplicit false

namespace DataContract.Yaml

open Layout (keyTokens)

/-- Wherever a value may stand, a text is read as some tokens. -/
def ReadsAsValue (text : List Char) (ts : List Token) : Prop :=
  ∀ (l : Layout) (flow : Nat) (gap after tail : List Char),
    l.StandsAt flow (gap ++ (text ++ (after ++ tail))) → IsBlank gap → IsGap after →
    EndsValue (flow != 0) tail →
    ∃ l' after', IsGap after' ∧ l'.StandsAt flow (after' ++ tail) ∧ l.Reads ts l'

/-- Wherever a part of a flow collection may stand, a text is read as some tokens. -/
def ReadsAsPart (text : List Char) (ts : List Token) : Prop :=
  ∀ (l : Layout) (flow : Nat) (gap after tail : List Char),
    l.StandsAt (flow + 1) (gap ++ (text ++ (after ++ tail))) → IsBlank gap →
    l.keyAllowed = true → IsGap after → EndsValue true tail →
    ∃ l' after', IsGap after' ∧ l'.StandsAt (flow + 1) (after' ++ tail) ∧ l.Reads ts l'

theorem ReadsAsValue.part {text : List Char} {ts : List Token} (reads : ReadsAsValue text ts) :
    ReadsAsPart text ts := fun l flow gap after tail stands blank _ gapAfter ends =>
  reads l (flow + 1) gap after tail stands blank gapAfter ends

/-! ### Scalars -/

/-- Whether a character begins a token that is no comment. -/
theorem isSolid_scalarChar {c : Char} (scalar : isScalarChar c = true) (rest : List Char) :
    IsSolid (c :: rest) := by
  intro d head
  cases head
  exact ⟨ne_of_isScalarChar scalar (by decide), isBreak_of_isScalarChar scalar,
    ne_of_isScalarChar scalar (by decide), ne_of_isScalarChar scalar (by decide)⟩

theorem readsAsValue_plain {cs : List Char} (plain : IsPlainText cs) :
    ReadsAsValue cs [.scalar (String.ofList cs) true] := by
  intro l flow gap after tail stands blank gapAfter ends
  obtain ⟨c, rest, rfl⟩ : ∃ c rest, cs = c :: rest := by
    obtain ⟨negative, c, rest, rfl, -⟩ := plain.begins
    cases negative
    · exact ⟨_, _, rfl⟩
    · exact ⟨_, _, rfl⟩
  have less : tail.length ≤ (rest ++ (after ++ tail)).length := by
    simp only [List.length_append]
    omega
  obtain ⟨l', stands', reads, -⟩ := Layout.reads_token [.scalar (String.ofList (c :: rest)) true]
    (P := fun _ => True) stands blank
    (isSolid_scalarChar (plain.chars c List.mem_cons_self) _) less fun front standsFront => by
      obtain ⟨next, read, standsNext, tokens⟩ :=
        Layout.readPlainScalar_of_standsAt standsFront plain.chars gapAfter ends
      exact ⟨next, (Layout.readTokenAt_plain front plain _).trans read, standsNext, tokens, trivial⟩
  exact ⟨l', [], .inl rfl, stands', reads⟩

theorem readsAsValue_quoted {s : String} (printable : IsPrintableText s) :
    ReadsAsValue (Json.quoted s).toList [.scalar s false] := by
  intro l flow gap after tail stands blank gapAfter ends
  obtain ⟨body, begins⟩ := Layout.quoted_toList s
  have less : (after ++ tail).length ≤ (body ++ (after ++ tail)).length := by
    simp only [List.length_append]
    omega
  rw [begins] at stands
  obtain ⟨l', stands', reads, -⟩ := Layout.reads_token [.scalar s false]
    (P := fun _ => True) stands blank (by intro c head; cases head; decide) less
    fun front standsFront => by
      have here : front.StandsAt flow ((Json.quoted s).toList ++ (after ++ tail)) :=
        begins ▸ standsFront
      obtain ⟨next, read, standsNext, tokens, -⟩ :=
        Layout.readQuotedScalar_of_standsAt here printable
      exact ⟨next, read, standsNext, tokens, trivial⟩
  exact ⟨l', after, gapAfter, stands', reads⟩

/-- A key with its value is read as a part of a flow collection. -/
theorem readsAsPart_entry {k : String} (printable : IsPrintableText k) {text : List Char}
    {ts : List Token} (value : ReadsAsValue text ts) :
    ReadsAsPart ((Json.quoted k).toList ++ (':' :: ' ' :: text)) (keyTokens k ++ ts) := by
  intro l flow gap after tail stands blank allowed gapAfter ends
  rw [List.append_assoc] at stands
  obtain ⟨between, standsBetween, readsKey⟩ := Layout.reads_key stands blank allowed printable
  obtain ⟨l', after', gap', stands', readsValue⟩ :=
    value between (flow + 1) [' '] after tail standsBetween ⟨1, .inl rfl⟩ gapAfter ends
  exact ⟨l', after', gap', stands', readsKey.trans readsValue⟩

/-! ### Brackets -/

/-- The brackets of a flow collection and their tokens. -/
structure IsBracket (left right : Char) (opening closing : Token) : Prop where
  opens : ∀ (l : Layout) (rest : List Char), l.readTokenAt left rest = l.openFlow opening
  closes : ∀ (l : Layout) (rest : List Char), l.readTokenAt right rest = l.closeFlow closing
  solidLeft : ∀ rest, IsSolid (left :: rest)
  solidRight : ∀ rest, IsSolid (right :: rest)
  ends : right = ']' ∨ right = '\x7d'

theorem isBracket_sequence : IsBracket '[' ']' .flowSequenceStart .flowSequenceEnd where
  opens := fun _ _ => rfl
  closes := fun _ _ => rfl
  solidLeft := fun _ c head => by cases head; decide
  solidRight := fun _ c head => by cases head; decide
  ends := .inl rfl

theorem isBracket_mapping : IsBracket '\x7b' '\x7d' .flowMappingStart .flowMappingEnd where
  opens := fun _ _ => rfl
  closes := fun _ _ => rfl
  solidLeft := fun _ c head => by cases head; decide
  solidRight := fun _ c head => by cases head; decide
  ends := .inr rfl

/-- From inside a flow collection, a text is read as the rest of the collection, up to
what follows it. -/
def ReadsToEnd (flow : Nat) (text : List Char) (ts : List Token) (rest : List Char) : Prop :=
  ∃ after tail, IsGap after ∧ EndsValue true tail ∧ text = after ++ tail ∧
    ∀ (l : Layout) (gap : List Char), IsBlank gap → l.StandsAt (flow + 1) (gap ++ tail) →
      ∃ l', l'.StandsAt flow rest ∧ l.Reads ts l'

variable {left right : Char} {opening closing : Token}

theorem readsToEnd_closing (bracket : IsBracket left right opening closing) (flow : Nat)
    {gap : List Char} (blank : IsGap gap) (rest : List Char) :
    ReadsToEnd flow (gap ++ right :: rest) [closing] rest := by
  refine ⟨gap, right :: rest, blank, .inr ⟨rfl, right, rest, rfl, .inr bracket.ends⟩, rfl, ?_⟩
  intro l gap' blank' stands
  obtain ⟨l', stands', reads, -⟩ := Layout.reads_token [closing] (P := fun _ => True) stands blank'
    (bracket.solidRight rest) (le_refl _) fun front standsFront => by
      obtain ⟨next, closed, standsNext, tokens⟩ := Layout.closeFlow_of_standsAt standsFront closing
      exact ⟨next, (bracket.closes front rest).trans closed, standsNext, tokens, trivial⟩
  exact ⟨l', stands', reads⟩

/-- A part and what follows it are read one after the other. -/
theorem ReadsToEnd.first {flow : Nat} {text part rest gap : List Char} {ts us : List Token}
    (toEnd : ReadsToEnd flow text ts rest) (reads : ReadsAsPart part us) {l : Layout}
    (allowed : l.keyAllowed = true) (blank : IsBlank gap)
    (stands : l.StandsAt (flow + 1) (gap ++ (part ++ text))) :
    ∃ l', l'.StandsAt flow rest ∧ l.Reads (us ++ ts) l' := by
  obtain ⟨after, tail, gapAfter, ends, rfl, finish⟩ := toEnd
  obtain ⟨between, after', gap', standsBetween, readsPart⟩ :=
    reads l flow gap after tail stands blank allowed gapAfter ends
  obtain ⟨l', stands', readsRest⟩ := finish between after' gap'.isBlank standsBetween
  exact ⟨l', stands', readsPart.trans readsRest⟩

/-- The rest of a collection is read from where it begins. -/
theorem ReadsToEnd.here {flow : Nat} {text rest : List Char} {ts : List Token}
    (toEnd : ReadsToEnd flow text ts rest) {l : Layout} (stands : l.StandsAt (flow + 1) text) :
    ∃ l', l'.StandsAt flow rest ∧ l.Reads ts l' := by
  obtain ⟨after, tail, gapAfter, -, rfl, finish⟩ := toEnd
  exact finish l after gapAfter.isBlank stands

/-- A comma in front of a part is read first. -/
theorem ReadsToEnd.comma {flow : Nat} {text part rest gap : List Char} {ts us : List Token}
    (toEnd : ReadsToEnd flow text ts rest) (reads : ReadsAsPart part us) (blank : IsBlank gap) :
    ReadsToEnd flow (',' :: (gap ++ (part ++ text))) (.flowEntry :: (us ++ ts)) rest := by
  refine ⟨[], _, .inl rfl, .inr ⟨rfl, ',', _, rfl, .inl rfl⟩, rfl, ?_⟩
  intro l gap' blank' stands
  obtain ⟨between, standsBetween, readsComma, allowed⟩ :=
    Layout.reads_token [.flowEntry] (P := (· = true)) stands blank'
      (by intro c head; cases head; decide) (le_refl _) fun front standsFront =>
        Layout.readComma_of_standsAt standsFront
  obtain ⟨l', stands', readsRest⟩ := toEnd.first reads allowed blank standsBetween
  exact ⟨l', stands', readsComma.trans readsRest⟩

/-- The parts after the first one, each on a line of its own after a comma. -/
def moreParts (line : List Char) (parts : List (List Char)) : List Char :=
  parts.flatMap fun part => ',' :: (line ++ part)

/-- The tokens of parts, with commas between them. -/
def partTokens : List (List Token) → List Token
  | [] => []
  | ts :: rest => ts ++ rest.flatMap fun us => .flowEntry :: us

theorem readsToEnd_moreParts (bracket : IsBracket left right opening closing) (flow : Nat)
    {line lastLine : List Char} (blank : IsGap line) (lastBlank : IsGap lastLine)
    {parts : List (List Char)} {tokens : List (List Token)}
    (reads : List.Forall₂ ReadsAsPart parts tokens) (rest : List Char) :
    ReadsToEnd flow (moreParts line parts ++ (lastLine ++ right :: rest))
      (tokens.flatMap (fun us => .flowEntry :: us) ++ [closing]) rest := by
  induction reads with
  | nil => exact readsToEnd_closing bracket flow lastBlank rest
  | cons part _ ih =>
      have step := ih.comma part blank.isBlank
      simpa only [moreParts, List.flatMap_cons, List.cons_append, List.append_assoc] using step

/-- The parts of a collection as they are written between brackets. -/
def between (line lastLine : List Char) : List (List Char) → List Char
  | [] => []
  | part :: rest => line ++ (part ++ (moreParts line rest ++ lastLine))

/-- Parts between brackets are read as a value. -/
theorem readsAsValue_bracketed (bracket : IsBracket left right opening closing)
    {line lastLine : List Char} (blank : IsGap line) (lastBlank : IsGap lastLine)
    {parts : List (List Char)} {tokens : List (List Token)}
    (reads : List.Forall₂ ReadsAsPart parts tokens) :
    ReadsAsValue (left :: (between line lastLine parts ++ [right]))
      (opening :: (partTokens tokens ++ [closing])) := by
  intro l flow gap after tail stands blank' gapAfter _
  rw [List.cons_append] at stands
  obtain ⟨inside, standsInside, readsOpening, allowed⟩ :=
    Layout.reads_token [opening] (P := (· = true)) stands blank' (bracket.solidLeft _) (le_refl _)
      fun front standsFront => by
        obtain ⟨next, opened, standsNext, tokens, allowed⟩ :=
          Layout.openFlow_of_standsAt standsFront opening
        exact ⟨next, (bracket.opens front _).trans opened, standsNext, tokens, allowed⟩
  have toEnd : ∃ l', l'.StandsAt flow (after ++ tail) ∧
      inside.Reads (partTokens tokens ++ [closing]) l' := by
    cases reads with
    | nil => exact (readsToEnd_closing bracket flow (.inl rfl) (after ++ tail)).here standsInside
    | cons part more =>
        have toEnd := readsToEnd_moreParts bracket flow blank lastBlank more (after ++ tail)
        have stands' := standsInside
        simp only [between, List.append_assoc, List.singleton_append] at stands'
        have reads := toEnd.first part allowed blank.isBlank stands'
        simpa only [partTokens, List.append_assoc] using reads
  obtain ⟨l', stands', readsRest⟩ := toEnd
  exact ⟨l', after, gapAfter, stands', readsOpening.trans readsRest⟩

end DataContract.Yaml
