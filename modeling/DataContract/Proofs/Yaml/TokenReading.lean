/-
# Reading tokens outside of blocks

A value that is written between brackets and quotes never opens an indented block, and
nothing in it has to be a key because of where it stands. Under this invariant each token
is read in one step, whatever candidates for keys are around. Only the text in front of a
colon needs a closer look: it becomes a key if it is short enough.
-/

import DataContract.Proofs.Yaml.ScalarReading
import DataContract.Yaml.Layout

set_option autoImplicit false

namespace DataContract.Yaml

open Text (isAsciiDigit)

/-! ### Blanks between tokens -/

/-- What stands between two tokens: some spaces, or the beginning of a line. -/
def IsBlank (gap : List Char) : Prop :=
  ∃ spaces, gap = List.replicate spaces ' ' ∨ gap = '\n' :: List.replicate spaces ' '

theorem IsGap.isBlank {gap : List Char} (blank : IsGap gap) : IsBlank gap := by
  rcases blank with rfl | ⟨spaces, rfl⟩
  · exact ⟨0, .inl rfl⟩
  · exact ⟨spaces, .inr rfl⟩

/-- Whether a text does not begin with something that is skipped. -/
def IsSolid (cs : List Char) : Prop :=
  ∀ c ∈ cs.head?, c ≠ ' ' ∧ isBreak c = false ∧ c ≠ '#' ∧ c ≠ '\uFEFF'

namespace Cursor

theorem skipIn_spaces {tail : List Char} (solid : IsSolid tail) (spaces : Nat) (p : Position) :
    ∃ q, skipIn (· == ' ') p (List.replicate spaces ' ' ++ tail) = ⟨q, tail⟩ ∧
      (spaces = 0 → q = p) := by
  induction spaces generalizing p with
  | zero =>
      refine ⟨p, ?_, fun _ => rfl⟩
      cases tail with
      | nil => rfl
      | cons c rest =>
          have space : (c == ' ') = false := beq_false_of_ne (solid c rfl).1
          show skipIn (· == ' ') p (c :: rest) = _
          rw [skipIn, space, if_neg Bool.false_ne_true]
  | succ n ih =>
      obtain ⟨q, skipped, -⟩ := ih (p.after ' ')
      exact ⟨q, skipped, fun zero => absurd zero (Nat.succ_ne_zero n)⟩

theorem skipComment_solid {tail : List Char} (solid : IsSolid tail) (p : Position) :
    skipComment ⟨p, tail⟩ = ⟨p, tail⟩ := by
  rw [skipComment, next?]
  cases tail with
  | nil => rfl
  | cons c rest =>
      have mark : (some c == some '#') = false :=
        beq_false_of_ne fun same => (solid c rfl).2.2.1 (Option.some.inj same)
      rw [List.head?_cons, mark, if_neg Bool.false_ne_true]

end Cursor

namespace Layout

theorem skipBlank_solid {tail : List Char} (solid : IsSolid tail) (bound spaces : Nat) (l : Layout)
    (rest : l.cursor.rest = List.replicate spaces ' ' ++ tail) :
    ∃ q, skipBlank (bound + 1) l = { l with cursor := ⟨q, tail⟩ } ∧
      (spaces = 0 → q = l.cursor.position) := by
  obtain ⟨q, skipped, same⟩ := Cursor.skipIn_spaces solid spaces l.cursor.position
  have cursor : l.cursor.skipSpaces.skipComment = ⟨q, tail⟩ := by
    rw [Cursor.skipSpaces, Cursor.skipWhile, rest, skipped, Cursor.skipComment_solid solid]
  have stop : (Cursor.next? ⟨q, tail⟩).any isBreak = false := by
    cases tail with
    | nil => rfl
    | cons c rest => exact (solid c rfl).2.1
  refine ⟨q, ?_, same⟩
  rw [skipBlank]
  simp only [cursor, stop]
  rfl

/-- At the beginning of a line the line is entered first. In a flow collection this does not
allow for a key. -/
theorem skipBlank_line {tail : List Char} (solid : IsSolid tail) (bound spaces : Nat) (l : Layout)
    (rest : l.cursor.rest = '\n' :: (List.replicate spaces ' ' ++ tail)) : ∃ q allowed,
    skipBlank (bound + 2) l = { l with cursor := ⟨q, tail⟩, keyAllowed := allowed } ∧
      (0 < l.flow → allowed = l.keyAllowed) := by
  have cursor : l.cursor.skipSpaces.skipComment = l.cursor := by
    obtain ⟨⟨p, cs⟩, tokens, count, flow, indent, indents, allowed, candidates, finished⟩ := l
    cases rest
    rfl
  have stop : l.cursor.next?.any isBreak = true := by
    rw [Cursor.next?, rest]
    rfl
  have next : (l.cursor.advance 1).rest = List.replicate spaces ' ' ++ tail := by
    rw [Cursor.advance, rest]
    rfl
  obtain ⟨q, skipped, -⟩ := skipBlank_solid solid bound spaces
    { l with cursor := l.cursor.advance 1, keyAllowed := l.keyAllowed || l.inBlock } next
  refine ⟨q, l.keyAllowed || l.inBlock, ?_, fun inFlow => ?_⟩
  · rw [skipBlank]
    simp only [cursor, stop, if_true]
    exact skipped
  · have outside : l.inBlock = false := by
      rw [inBlock, beq_eq_false_iff_ne]
      omega
    rw [outside, Bool.or_false]

/-- No mark of byte order stands in front of a token. -/
theorem next?_ne_mark {gap tail : List Char} (blank : IsBlank gap) (solid : IsSolid tail)
    {c : Cursor} (rest : c.rest = gap ++ tail) : c.next? ≠ some '\uFEFF' := by
  rw [Cursor.next?, rest]
  obtain ⟨spaces, rfl | rfl⟩ := blank
  · cases spaces with
    | zero => exact fun same => (solid _ same).2.2.2 rfl
    | succ n => exact fun same => absurd (Option.some.inj same) (by decide)
  · exact fun same => absurd (Option.some.inj same) (by decide)

/-- What stands in front of a token is skipped. In a flow collection nothing else
changes. -/
theorem skipToToken_eq {gap tail : List Char} (blank : IsBlank gap) (solid : IsSolid tail)
    (l : Layout) (rest : l.cursor.rest = gap ++ tail) : ∃ q allowed,
    l.skipToToken = { l with cursor := ⟨q, tail⟩, keyAllowed := allowed } ∧
      (0 < l.flow → allowed = l.keyAllowed) ∧ (gap = [] → q = l.cursor.position) := by
  have unfolded : l.skipToToken = skipBlank (l.cursor.rest.length + 1) l := by
    rw [skipToToken]
    simp only [beq_false_of_ne (next?_ne_mark blank solid rest), Bool.and_false]
    rfl
  rw [unfolded]
  obtain ⟨spaces, rfl | rfl⟩ := blank
  · obtain ⟨q, skipped, same⟩ := skipBlank_solid solid l.cursor.rest.length spaces l rest
    refine ⟨q, l.keyAllowed, skipped, fun _ => rfl, fun none => same ?_⟩
    rwa [List.replicate_eq_nil_iff] at none
  · obtain ⟨bound, length⟩ : ∃ n, l.cursor.rest.length = n + 1 := by
      rw [rest]
      exact ⟨_, rfl⟩
    obtain ⟨q, allowed, skipped, inFlow⟩ := skipBlank_line solid bound spaces l rest
    exact ⟨q, allowed, length ▸ skipped, inFlow, fun none => by cases none⟩

/-! ### The invariant between tokens -/

/-- No candidate has to be a key. -/
def Optional (candidates : List (Nat × Candidate)) : Prop :=
  ∀ c ∈ candidates, c.2.required = false

/-- Reading has come to a text in some flow collections and outside of all blocks, and no
candidate has to be a key. -/
structure StandsAt (l : Layout) (flow : Nat) (rest : List Char) : Prop where
  flow : l.flow = flow
  rest : l.cursor.rest = rest
  indent : l.indent = -1
  indents : l.indents = []
  optional : Optional l.candidates
  going : l.finished = false

theorem optional_filter {candidates : List (Nat × Candidate)} (optional : Optional candidates)
    (keeps : Nat × Candidate → Bool) : Optional (candidates.filter keeps) :=
  fun c mem => optional c (List.mem_of_mem_filter mem)

theorem dropStale_of_optional {l : Layout} (optional : Optional l.candidates) :
    l.dropStale = .ok { l with candidates := l.candidates.filter fun (_, c) => !l.isStale c } := by
  have none : (l.candidates.any fun (_, c) => l.isStale c && c.required) = false := by
    rw [List.any_eq_false]
    intro c mem
    show ¬(l.isStale c.2 && c.2.required) = true
    rw [optional c mem, Bool.and_false]
    exact Bool.false_ne_true
  rw [dropStale, none, if_neg Bool.false_ne_true]

theorem dropCandidate_of_optional {l : Layout} (optional : Optional l.candidates) :
    ∃ candidates, l.dropCandidate = .ok { l with candidates } ∧ Optional candidates ∧
      candidates.lookup l.flow = none := by
  rw [dropCandidate]
  cases found : l.candidates.lookup l.flow with
  | none => exact ⟨l.candidates, rfl, optional, found⟩
  | some c =>
      obtain ⟨before, after, split, -⟩ := List.lookup_eq_some_iff.1 found
      have mem : (l.flow, c) ∈ l.candidates := by
        rw [split]
        exact List.mem_append_right _ List.mem_cons_self
      refine ⟨l.candidates.filter (·.1 != l.flow), ?_, optional_filter optional _, ?_⟩
      · dsimp only
        rw [optional _ mem, if_neg Bool.false_ne_true]
      · rw [List.lookup_eq_none_iff]
        intro d kept
        exact bne_comm.trans (List.mem_filter.1 kept).2

/-- A token at a place where a key may stand becomes the only candidate of its collection;
elsewhere nothing changes. -/
theorem addCandidate_of_standsAt {l : Layout} {flow : Nat} {rest : List Char}
    (stands : l.StandsAt flow rest) : ∃ candidates,
    l.addCandidate = .ok { l with candidates } ∧ Optional candidates ∧
      (l.keyAllowed = true → ∃ others,
        candidates = (l.flow, ⟨l.count, false, l.cursor.position⟩) :: others ∧
          others.lookup l.flow = none) := by
  rw [addCandidate]
  by_cases allowed : l.keyAllowed = true
  · obtain ⟨others, dropped, optional, none⟩ := dropCandidate_of_optional stands.optional
    have margin : (l.inBlock && l.indent == (l.column : Int)) = false := by
      rw [stands.indent, show ((-1 : Int) == (l.column : Int)) = false from
        beq_false_of_ne (by omega), Bool.and_false]
    refine ⟨(l.flow, ⟨l.count, false, l.cursor.position⟩) :: others, ?_, ?_,
      fun _ => ⟨others, rfl, none⟩⟩
    · rw [if_pos allowed, margin, dropped]
      rfl
    · intro c mem
      rcases List.mem_cons.1 mem with rfl | mem
      · rfl
      · exact optional c mem
  · exact ⟨l.candidates, if_neg allowed, stands.optional, fun h => absurd h allowed⟩

/-! ### Reading on -/

/-- One layout leads to another: from both the same tokens come, as long as characters are
left. -/
def Leads (l l' : Layout) : Prop :=
  ∀ bound, l.cursor.rest.length < bound → ∃ bound', l'.cursor.rest.length < bound' ∧
    TokenStream.ofLayout bound l = TokenStream.ofLayout bound' l'

theorem Leads.trans {l l' l'' : Layout} (first : l.Leads l') (second : l'.Leads l'') :
    l.Leads l'' := fun bound enough => by
  obtain ⟨bound', enough', same⟩ := first bound enough
  obtain ⟨bound'', enough'', same'⟩ := second bound' enough'
  exact ⟨bound'', enough'', same.trans same'⟩

/-- A step that takes a character leads on. -/
theorem leads_of_advance {l l' : Layout} (step : l.advance = .ok l') (going : l'.finished = false)
    (less : l'.cursor.rest.length < l.cursor.rest.length) : l.Leads l' := fun bound enough => by
  cases bound with
  | zero => exact absurd enough (Nat.not_lt_zero _)
  | succ n =>
      refine ⟨n, by omega, ?_⟩
      rw [TokenStream.ofLayout, step]
      simp only [going]
      rfl

/-- One layout leads to another that has some more tokens. -/
structure Reads (l : Layout) (ts : List Token) (l' : Layout) : Prop where
  leads : l.Leads l'
  tokens : l'.tokens = ts.reverse ++ l.tokens

theorem Reads.trans {l l' l'' : Layout} {ts us : List Token} (first : l.Reads ts l')
    (second : l'.Reads us l'') : l.Reads (ts ++ us) l'' where
  leads := first.leads.trans second.leads
  tokens := by rw [second.tokens, first.tokens, List.reverse_append, List.append_assoc]

theorem StandsAt.withCandidates {l : Layout} {flow : Nat} {rest : List Char}
    (stands : l.StandsAt flow rest) {candidates : List (Nat × Candidate)}
    (optional : Optional candidates) : StandsAt { l with candidates } flow rest :=
  ⟨stands.flow, stands.rest, stands.indent, stands.indents, optional, stands.going⟩

theorem unwind_of_standsAt {l : Layout} {flow : Nat} {rest : List Char}
    (stands : l.StandsAt flow rest) (column : Int) : l.unwind column = l := by
  rw [unwind, stands.indents, closeBlocks]
  split <;> rfl

/-- What is left of a layout when candidates are dropped that are too far back. -/
structure Kept (l kept : Layout) : Prop where
  cursor : kept.cursor = l.cursor
  tokens : kept.tokens = l.tokens
  count : kept.count = l.count
  allowed : kept.keyAllowed = l.keyAllowed
  candidates : kept.candidates = l.candidates.filter fun (_, c) => !l.isStale c

theorem StandsAt.dropStale {l : Layout} {flow : Nat} {rest : List Char}
    (stands : l.StandsAt flow rest) :
    ∃ kept, l.dropStale = .ok kept ∧ kept.StandsAt flow rest ∧ l.Kept kept :=
  ⟨_, dropStale_of_optional stands.optional,
    stands.withCandidates (optional_filter stands.optional _), ⟨rfl, rfl, rfl, rfl, rfl⟩⟩

/-- The layout in front of the next token: `l` with the blanks skipped and the candidates
that are too far back dropped. -/
structure InFront (l : Layout) (flow : Nat) (gap tail : List Char) (front : Layout) : Prop where
  stands : front.StandsAt flow tail
  tokens : front.tokens = l.tokens
  count : front.count = l.count
  allowed : 0 < flow → front.keyAllowed = l.keyAllowed
  near : gap = [] → front.cursor.position = l.cursor.position ∧
    front.candidates = l.candidates.filter fun (_, c) => !l.isStale c

/-- The token that stands at the cursor, or the end. -/
def readNext (l : Layout) : Except Error Layout :=
  match l.cursor.rest with
  | [] => l.readEnd
  | c :: rest => l.readTokenAt c rest

theorem advance_of_kept {l kept : Layout} (skipped : l.skipToToken.dropStale = .ok kept) :
    l.advance = (kept.unwind kept.column).readNext.bind dropStale := by
  rw [advance, skipped, readNext]
  show (do
    let l ← match (kept.unwind kept.column).cursor.rest with
      | [] => (kept.unwind kept.column).readEnd
      | c :: rest => (kept.unwind kept.column).readTokenAt c rest
    l.dropStale) = _
  cases (kept.unwind kept.column).cursor.rest <;> rfl

/-- A step skips the blanks, reads one token, and drops the candidates that are now too
far back. -/
theorem advance_eq {l : Layout} {flow : Nat} {gap tail : List Char}
    (stands : l.StandsAt flow (gap ++ tail)) (blank : IsBlank gap) (solid : IsSolid tail) :
    ∃ front, l.InFront flow gap tail front ∧ l.advance = front.readNext.bind dropStale := by
  obtain ⟨q, allowed, skipped, inFlow, still⟩ := skipToToken_eq blank solid l stands.rest
  have here : StandsAt { l with cursor := ⟨q, tail⟩, keyAllowed := allowed } flow tail :=
    ⟨stands.flow, rfl, stands.indent, stands.indents, stands.optional, stands.going⟩
  obtain ⟨front, dropped, stands', kept⟩ := here.dropStale
  refine ⟨front, ⟨stands', kept.tokens, kept.count, fun deep => ?_, fun none => ?_⟩, ?_⟩
  · exact kept.allowed.trans (inFlow (stands.flow ▸ deep))
  · obtain rfl := still none
    exact ⟨by rw [kept.cursor], kept.candidates⟩
  · rw [← skipped] at dropped
    rw [advance_of_kept dropped, unwind_of_standsAt stands']

/-- A token that is read in front of the cursor is read in one step. -/
theorem reads_token (ts : List Token) {P : Bool → Prop} {l : Layout} {flow : Nat}
    {gap : List Char} {c : Char} {rest : List Char}
    (stands : l.StandsAt flow (gap ++ c :: rest)) (blank : IsBlank gap)
    (solid : IsSolid (c :: rest)) {flow' : Nat} {rest' : List Char}
    (less : rest'.length ≤ rest.length)
    (step : ∀ front : Layout, front.StandsAt flow (c :: rest) →
      ∃ l', front.readTokenAt c rest = .ok l' ∧ l'.StandsAt flow' rest' ∧
        l'.tokens = ts.reverse ++ front.tokens ∧ P l'.keyAllowed) :
    ∃ l', l'.StandsAt flow' rest' ∧ l.Reads ts l' ∧ P l'.keyAllowed := by
  obtain ⟨front, inFront, advanced⟩ := advance_eq stands blank solid
  obtain ⟨after, read, stands', tokens, holds⟩ := step front inFront.stands
  obtain ⟨l', dropped, stands'', kept⟩ := stands'.dropStale
  refine ⟨l', stands'', ⟨leads_of_advance ?_ ?_ ?_, ?_⟩, kept.allowed ▸ holds⟩
  · rw [advanced, readNext, inFront.stands.rest]
    show (front.readTokenAt c rest).bind dropStale = _
    rw [read]
    exact dropped
  · exact stands''.going
  · rw [stands''.rest, stands.rest, List.length_append, List.length_cons]
    omega
  · rw [kept.tokens, tokens, inFront.tokens]

/-! ### The marks of flow collections -/

theorem StandsAt.take {l : Layout} {flow : Nat} {c : Char} {rest : List Char}
    (stands : l.StandsAt flow (c :: rest)) (t : Token) : (l.take t 1).StandsAt flow rest := by
  refine ⟨stands.flow, ?_, stands.indent, stands.indents, stands.optional, stands.going⟩
  show (l.cursor.advance 1).rest = rest
  rw [Cursor.advance, stands.rest]
  cases rest <;> rfl

theorem openFlow_of_standsAt {l : Layout} {flow : Nat} {c : Char} {rest : List Char}
    (stands : l.StandsAt flow (c :: rest)) (t : Token) : ∃ l', l.openFlow t = .ok l' ∧
      l'.StandsAt (flow + 1) rest ∧ l'.tokens = t :: l.tokens ∧ l'.keyAllowed = true := by
  obtain ⟨candidates, added, optional, -⟩ := addCandidate_of_standsAt stands
  have taken := (stands.withCandidates optional).take t
  have opened : l.openFlow t = .ok
      { Layout.take { l with candidates } t 1 with flow := l.flow + 1, keyAllowed := true } := by
    rw [openFlow, added]
    rfl
  exact ⟨_, opened, ⟨congrArg (· + 1) stands.flow, taken.rest, taken.indent, taken.indents,
    taken.optional, taken.going⟩, rfl, rfl⟩

theorem closeFlow_of_standsAt {l : Layout} {flow : Nat} {c : Char} {rest : List Char}
    (stands : l.StandsAt (flow + 1) (c :: rest)) (t : Token) : ∃ l', l.closeFlow t = .ok l' ∧
      l'.StandsAt flow rest ∧ l'.tokens = t :: l.tokens := by
  obtain ⟨candidates, dropped, optional, -⟩ := dropCandidate_of_optional stands.optional
  have taken := (stands.withCandidates optional).take t
  have closed : l.closeFlow t = .ok
      { Layout.take { l with candidates } t 1 with flow := l.flow - 1, keyAllowed := false } := by
    rw [closeFlow, dropped]
    rfl
  exact ⟨_, closed, ⟨congrArg (· - 1) stands.flow, taken.rest, taken.indent, taken.indents,
    taken.optional, taken.going⟩, rfl⟩

theorem readComma_of_standsAt {l : Layout} {flow : Nat} {c : Char} {rest : List Char}
    (stands : l.StandsAt flow (c :: rest)) : ∃ l', l.readComma = .ok l' ∧
      l'.StandsAt flow rest ∧ l'.tokens = .flowEntry :: l.tokens ∧ l'.keyAllowed = true := by
  obtain ⟨candidates, dropped, optional, -⟩ :=
    dropCandidate_of_optional (l := { l with keyAllowed := true }) stands.optional
  have taken := (stands.withCandidates optional).take .flowEntry
  have read : l.readComma = .ok
      (Layout.take { l with keyAllowed := true, candidates } .flowEntry 1) := by
    rw [readComma, dropped]
    rfl
  exact ⟨_, read, ⟨taken.flow, taken.rest, taken.indent, taken.indents, taken.optional,
    taken.going⟩, rfl, rfl⟩

/-! ### Scalars -/

theorem endsWord_of_isScalarChar {c : Char} (scalar : isScalarChar c = true) (rest : List Char) :
    endsWord (c :: rest) = false := by
  have other (d : Char) (none : isScalarChar d = false) : (c == d) = false :=
    beq_false_of_ne (ne_of_isScalarChar scalar none)
  rw [endsWord, isSpace, other ' ' (by decide), other '\t' (by decide),
    isBreak_of_isScalarChar scalar]
  rfl

/-- No mark begins with a digit or a letter. -/
theorem readTokenAt_word (l : Layout) {c : Char}
    (word : isAsciiDigit c = true ∨ 'a' ≤ c ∧ c ≤ 'z') (rest : List Char) :
    l.readTokenAt c rest = l.readPlainScalar := by
  have other (d : Char) (none : isAsciiDigit d = false ∧ ¬('a' ≤ d ∧ d ≤ 'z')) :
      (c == d) = false := by
    apply beq_false_of_ne
    rintro rfl
    rcases word with digit | letter
    · rw [none.1] at digit
      cases digit
    · exact none.2 letter
  have scalar : isScalarChar c = true := by
    simp only [isScalarChar, Bool.or_eq_true, Bool.and_eq_true, decide_eq_true_iff]
    exact .inl (.inl (.inl word))
  have plain : beginsPlain (!l.inBlock) c rest = true := by
    have none : "-?:,[]\x7b\x7d#&*!|>\x27\x22%@\x60".toList.contains c = false := by
      have marks : "-?:,[]\x7b\x7d#&*!|>\x27\x22%@\x60".toList.all
          (fun d => !isAsciiDigit d && !('a' ≤ d && d ≤ 'z')) = true := by decide
      rw [List.contains_eq_any_beq, List.any_eq_false]
      intro d mem
      have mark := List.all_eq_true.1 marks d mem
      simp only [Bool.and_eq_true, Bool.not_eq_true', Bool.and_eq_false_iff,
        decide_eq_false_iff_not] at mark
      rw [other d ⟨mark.1, not_and_or.2 mark.2⟩]
      exact Bool.false_ne_true
    rw [beginsPlain, isSpace, other ' ' (by decide), other '\t' (by decide),
      isBreak_of_isScalarChar scalar, none]
    rfl
  simp only [readTokenAt, other '%' (by decide), other '-' (by decide), other '.' (by decide),
    other '[' (by decide), other '\x7b' (by decide), other ']' (by decide),
    other '\x7d' (by decide), other ',' (by decide), other '?' (by decide), other ':' (by decide),
    other '*' (by decide), other '&' (by decide), other '!' (by decide), other '|' (by decide),
    other '>' (by decide), other '\x27' (by decide), other '\x22' (by decide), plain,
    Bool.false_and, Bool.false_eq_true, if_false, if_true]

/-- A sign in front of a digit or a letter is neither an entry nor a separator. -/
theorem readTokenAt_signed (l : Layout) {c : Char} (scalar : isScalarChar c = true)
    (notSign : c ≠ '-') (rest : List Char) :
    l.readTokenAt '-' (c :: rest) = l.readPlainScalar := by
  have word := endsWord_of_isScalarChar scalar rest
  have separator : startsSeparator ('-' :: c :: rest) = false := by
    rw [startsSeparator.eq_3]
    · intro _ same
      exact notSign (List.cons.inj (List.cons.inj same).2).1
    · intro _ same
      exact absurd (List.cons.inj same).1 (by decide)
  have plain : beginsPlain (!l.inBlock) '-' (c :: rest) = true := by
    rw [beginsPlain, word]
    simp
  rw [readTokenAt]
  simp only [separator, word, plain, Bool.and_false, Bool.false_eq_true, if_false]
  rfl

theorem readTokenAt_plain (l : Layout) {c : Char} {cs : List Char} (plain : IsPlainText (c :: cs))
    (tail : List Char) : l.readTokenAt c (cs ++ tail) = l.readPlainScalar := by
  obtain ⟨negative, d, rest, shape, word⟩ := plain.begins
  cases negative with
  | false =>
      cases shape
      exact readTokenAt_word l word _
  | true =>
      cases shape
      refine readTokenAt_signed l (plain.chars d (List.mem_cons_of_mem _ List.mem_cons_self)) ?_ _
      rintro rfl
      exact absurd word (by decide)

theorem readPlainScalar_of_standsAt {l : Layout} {flow : Nat} {cs gap tail : List Char}
    (stands : l.StandsAt flow (cs ++ (gap ++ tail))) (scalar : IsScalarText cs)
    (blank : IsGap gap) (ends : EndsValue (flow != 0) tail) :
    ∃ l', l.readPlainScalar = .ok l' ∧ l'.StandsAt flow tail ∧
      l'.tokens = .scalar (String.ofList cs) true :: l.tokens := by
  obtain ⟨candidates, added, optional, -⟩ := addCandidate_of_standsAt stands
  have cursor : l.cursor = ⟨l.cursor.position, cs ++ (gap ++ tail)⟩ := by rw [← stands.rest]
  have inFlow : (!l.inBlock) = (flow != 0) := by rw [inBlock, stands.flow]; rfl
  obtain ⟨q, broke, plain⟩ :=
    readPlain_eq scalar blank ends l.contentColumn l.cursor.position
  have read : l.readPlainScalar = .ok
      { Layout.push { l with candidates } (.scalar (String.ofList cs) true) with
        cursor := ⟨q, tail⟩, keyAllowed := broke } := by
    rw [readPlainScalar, added]
    show Except.ok _ = _
    have same : readPlain (!l.inBlock) l.contentColumn l.cursor =
        ⟨String.ofList cs, ⟨q, tail⟩, broke⟩ := by rw [cursor, inFlow, plain]
    show Except.ok { Layout.push { l with candidates }
        (.scalar (readPlain (!l.inBlock) l.contentColumn l.cursor).text true) with
      cursor := (readPlain (!l.inBlock) l.contentColumn l.cursor).cursor,
      keyAllowed := (readPlain (!l.inBlock) l.contentColumn l.cursor).brokeLine } = _
    rw [same]
  exact ⟨_, read, ⟨stands.flow, rfl, stands.indent, stands.indents, optional, stands.going⟩, rfl⟩

/-- A quoted text is read as one token. The cursor stays on its line, as many characters
further as the text has. -/
theorem readQuotedScalar_of_standsAt {l : Layout} {flow : Nat} {s : String} {rest : List Char}
    (stands : l.StandsAt flow ((Json.quoted s).toList ++ rest)) (printable : IsPrintableText s) :
    ∃ l', l.readQuotedScalar true = .ok l' ∧ l'.StandsAt flow rest ∧
      l'.tokens = .scalar s false :: l.tokens ∧ l'.count = l.count + 1 ∧
      l'.cursor.position.line = l.cursor.position.line ∧
      l'.cursor.position.index = l.cursor.position.index + (Json.quoted s).toList.length ∧
      (l.keyAllowed = true → ∃ others,
        l'.candidates = (flow, ⟨l.count, false, l.cursor.position⟩) :: others ∧
          others.lookup flow = none) := by
  obtain ⟨candidates, added, optional, key⟩ := addCandidate_of_standsAt stands
  have cursor : l.cursor = ⟨l.cursor.position, (Json.quoted s).toList ++ rest⟩ := by
    rw [← stands.rest]
  obtain ⟨q, quoted, line, index⟩ := readQuoted_eq printable l.cursor.position rest
  have read : l.readQuotedScalar true = .ok
      { Layout.push { l with candidates } (.scalar s false) with
        cursor := ⟨q, rest⟩, keyAllowed := false } := by
    have same : readQuoted true l.cursor = .ok (s, ⟨q, rest⟩) := by rw [cursor, quoted]
    rw [readQuotedScalar, added]
    show (readQuoted true l.cursor).bind _ = _
    rw [same]
    rfl
  exact ⟨_, read, ⟨stands.flow, rfl, stands.indent, stands.indents, optional, stands.going⟩, rfl,
    rfl, line, index, stands.flow ▸ key⟩

/-- The tokens of a key and its colon. Only a text of at most 1024 characters becomes a
key. -/
def keyTokens (k : String) : List Token :=
  (if (Json.quoted k).toList.length ≤ 1024 then [.key] else []) ++ [.scalar k false, .value]

/-- A candidate for a text on the same line is dropped exactly if the text is too long. -/
theorem isStale_sameLine (l : Layout) {c : Candidate} {length : Nat}
    (line : l.cursor.position.line = c.position.line)
    (index : l.cursor.position.index = c.position.index + length) :
    l.isStale c = decide (1024 < length) := by
  rw [isStale, line, index, Nat.add_sub_cancel_left, bne_self_eq_false, Bool.false_or]

theorem readColon_of_candidate {l : Layout} {flow : Nat} {rest : List Char}
    (stands : l.StandsAt (flow + 1) (':' :: rest)) {c : Candidate}
    (found : l.candidates.lookup (flow + 1) = some c) {s : Token} {ts : List Token}
    (tokens : l.tokens = s :: ts) (count : l.count = c.token + 1) :
    ∃ l', l.readColon = .ok l' ∧ l'.StandsAt (flow + 1) rest ∧
      l'.tokens = .value :: s :: .key :: ts := by
  have outside : l.inBlock = false := by rw [inBlock, stands.flow]; rfl
  have taken := (stands.withCandidates
    (optional_filter stands.optional (·.1 != l.flow))).take .value
  have confirmed : l.confirm c =
      { l with
        candidates := l.candidates.filter (·.1 != l.flow)
        keyAllowed := false
        tokens := s :: .key :: ts
        count := l.count + 1 } := by
    rw [confirm]
    show (if (l.inBlock && _) = true then _ else _) = _
    rw [outside, Bool.false_and, if_neg Bool.false_ne_true, insertAt]
    show ({ l with
      tokens := l.tokens.insertIdx (l.count - c.token) .key
      count := l.count + 1
      keyAllowed := false
      candidates := l.candidates.filter (·.1 != l.flow) } : Layout) = _
    rw [tokens, count, Nat.add_sub_cancel_left]
    rfl
  have read : l.readColon = .ok ((l.confirm c).take .value 1) := by
    rw [readColon, stands.flow, found]
  rw [confirmed] at read
  exact ⟨_, read, ⟨taken.flow, taken.rest, taken.indent, taken.indents, taken.optional,
    taken.going⟩, rfl⟩

theorem readColon_of_no_candidate {l : Layout} {flow : Nat} {rest : List Char}
    (stands : l.StandsAt (flow + 1) (':' :: rest))
    (none : l.candidates.lookup (flow + 1) = none) :
    ∃ l', l.readColon = .ok l' ∧ l'.StandsAt (flow + 1) rest ∧
      l'.tokens = .value :: l.tokens := by
  have outside : l.inBlock = false := by rw [inBlock, stands.flow]; rfl
  obtain ⟨candidates, dropped, optional, -⟩ :=
    dropCandidate_of_optional (l := { l with keyAllowed := l.inBlock }) stands.optional
  have taken := (stands.withCandidates optional).take .value
  have read : l.readColon = .ok
      (Layout.take { l with keyAllowed := l.inBlock, candidates } .value 1) := by
    have entry : l.beginEntry .blockMappingStart = .ok l := by
      rw [beginEntry, outside, if_neg Bool.false_ne_true]
    have missing : l.candidates.lookup l.flow = Option.none := stands.flow ▸ none
    rw [readColon, missing]
    show (l.beginEntry .blockMappingStart).bind _ = _
    rw [entry]
    show (Layout.dropCandidate { l with keyAllowed := l.inBlock }).bind
      (fun l => Except.ok (l.take .value 1)) = _
    rw [dropped]
    rfl
  exact ⟨_, read, ⟨taken.flow, taken.rest, taken.indent, taken.indents, taken.optional,
    taken.going⟩, rfl⟩

theorem quoted_toList (s : String) : ∃ body, (Json.quoted s).toList = '\x22' :: body := by
  rw [Json.quoted, String.toList_ofList]
  exact ⟨_, rfl⟩

theorem lookup_filter_eq_none {candidates : List (Nat × Candidate)} {flow : Nat}
    (absent : candidates.lookup flow = none) (keeps : Nat × Candidate → Bool) :
    (candidates.filter keeps).lookup flow = none := by
  rw [List.lookup_eq_none_iff] at absent ⊢
  exact fun c mem => absent c (List.mem_of_mem_filter mem)

/-- Two steps on one line drop the candidate of a text that is too long, and keep that of
a shorter one. -/
theorem lookup_sameLine {after between front : Layout} {flow length : Nat} {c : Candidate}
    {others : List (Nat × Candidate)} (candidates : after.candidates = (flow, c) :: others)
    (absent : others.lookup flow = none) (line : after.cursor.position.line = c.position.line)
    (index : after.cursor.position.index = c.position.index + length) (kept : after.Kept between)
    (again : front.candidates = between.candidates.filter fun (_, c) => !between.isStale c) :
    front.candidates.lookup flow = if length ≤ 1024 then some c else none := by
  have first := isStale_sameLine after line index
  have second := isStale_sameLine between (kept.cursor ▸ line) (kept.cursor ▸ index)
  rw [again, kept.candidates, candidates]
  by_cases short : length ≤ 1024
  · rw [decide_eq_false (by omega)] at first second
    rw [if_pos short, List.filter_cons_of_pos (by simp [first]),
      List.filter_cons_of_pos (by simp [second]), List.lookup_cons_self]
  · rw [decide_eq_true (by omega)] at first
    rw [if_neg short, List.filter_cons_of_neg (by simp [first])]
    exact lookup_filter_eq_none (lookup_filter_eq_none absent _) _

/-- In a flow collection every colon belongs to a key. -/
theorem readTokenAt_colon {l : Layout} {flow : Nat} {rest : List Char}
    (stands : l.StandsAt (flow + 1) (':' :: rest)) (more : List Char) :
    l.readTokenAt ':' more = l.readColon := by
  have outside : l.inBlock = false := by rw [inBlock, stands.flow]; rfl
  rw [readTokenAt, outside]
  rfl

/-- After the text of a key: its token is there, and the text is still a candidate if it is
short enough when the colon is reached. -/
structure AfterKey (l : Layout) (flow : Nat) (k : String) (rest : List Char) (between : Layout) :
    Prop where
  stands : between.StandsAt (flow + 1) (':' :: rest)
  leads : l.Leads between
  tokens : between.tokens = .scalar k false :: l.tokens
  candidate : ∃ c : Candidate, between.count = c.token + 1 ∧ ∀ front : Layout,
    front.candidates = between.candidates.filter (fun (_, c) => !between.isStale c) →
    front.candidates.lookup (flow + 1) =
      if (Json.quoted k).toList.length ≤ 1024 then some c else none

/-- The first step reads the text of a key, and makes a candidate of it. -/
theorem reads_keyText {l : Layout} {flow : Nat} {gap : List Char} {k : String} {rest : List Char}
    (stands : l.StandsAt (flow + 1) (gap ++ ((Json.quoted k).toList ++ ':' :: rest)))
    (blank : IsBlank gap) (allowed : l.keyAllowed = true) (printable : IsPrintableText k) :
    ∃ between, l.AfterKey flow k rest between := by
  obtain ⟨body, begins⟩ := quoted_toList k
  have solid : IsSolid ((Json.quoted k).toList ++ ':' :: rest) := by
    rw [begins]
    intro c head
    cases head
    decide
  obtain ⟨front, inFront, advanced⟩ := advance_eq stands blank solid
  obtain ⟨after, read, standsAfter, tokens, count, line, index, key⟩ :=
    readQuotedScalar_of_standsAt inFront.stands printable
  obtain ⟨others, candidates, absent⟩ := key ((inFront.allowed (Nat.succ_pos flow)).trans allowed)
  obtain ⟨between, dropped, standsBetween, kept⟩ := standsAfter.dropStale
  refine ⟨between, standsBetween, ?_, ?_, ⟨front.count, false, front.cursor.position⟩, ?_, ?_⟩
  · apply leads_of_advance
    · rw [advanced, readNext, inFront.stands.rest, begins]
      show (front.readQuotedScalar true).bind dropStale = _
      rw [read]
      exact dropped
    · exact standsBetween.going
    · rw [standsBetween.rest, stands.rest, begins]
      simp only [List.length_append, List.length_cons]
      omega
  · rw [kept.tokens, tokens, inFront.tokens]
  · rw [kept.count, count]
  · exact fun next again => lookup_sameLine candidates absent line index kept again

/-- The second step reads the colon, and makes a key of the candidate if it is still there. -/
theorem AfterKey.reads_colon {l between : Layout} {flow : Nat} {k : String} {rest : List Char}
    (afterKey : l.AfterKey flow k rest between) :
    ∃ l', l'.StandsAt (flow + 1) rest ∧ l.Reads (keyTokens k) l' := by
  obtain ⟨c, count, found⟩ := afterKey.candidate
  have noBlank : IsBlank [] := ⟨0, .inl rfl⟩
  obtain ⟨front, inFront, advanced⟩ := advance_eq afterKey.stands noBlank
    (by intro c head; cases head; decide)
  have found := found front (inFront.near rfl).2
  have tokens : front.tokens = .scalar k false :: l.tokens := inFront.tokens.trans afterKey.tokens
  obtain ⟨colon, readColon, standsColon, tokensColon⟩ : ∃ l', front.readColon = .ok l' ∧
      l'.StandsAt (flow + 1) rest ∧ l'.tokens = (keyTokens k).reverse ++ l.tokens := by
    rw [keyTokens]
    by_cases short : (Json.quoted k).toList.length ≤ 1024
    · rw [if_pos short] at found ⊢
      exact readColon_of_candidate inFront.stands found tokens (inFront.count.trans count)
    · rw [if_neg short] at found ⊢
      obtain ⟨l', read, stands, tokensRead⟩ := readColon_of_no_candidate inFront.stands found
      exact ⟨l', read, stands, by rw [tokensRead, tokens]; rfl⟩
  obtain ⟨l', dropped, stands, kept⟩ := standsColon.dropStale
  refine ⟨l', stands, afterKey.leads.trans (leads_of_advance ?_ stands.going ?_), ?_⟩
  · rw [advanced, readNext, inFront.stands.rest]
    show (front.readTokenAt ':' rest).bind dropStale = _
    rw [readTokenAt_colon inFront.stands, readColon]
    exact dropped
  · rw [stands.rest, afterKey.stands.rest]
    exact Nat.lt_succ_self _
  · rw [kept.tokens, tokensColon]

/-- A key and its colon are read in two steps. -/
theorem reads_key {l : Layout} {flow : Nat} {gap : List Char} {k : String} {rest : List Char}
    (stands : l.StandsAt (flow + 1) (gap ++ ((Json.quoted k).toList ++ ':' :: rest)))
    (blank : IsBlank gap) (allowed : l.keyAllowed = true) (printable : IsPrintableText k) :
    ∃ l', l'.StandsAt (flow + 1) rest ∧ l.Reads (keyTokens k) l' := by
  obtain ⟨between, afterKey⟩ := reads_keyText stands blank allowed printable
  exact afterKey.reads_colon

/-! ### The end -/

/-- After the last token, the stream ends. -/
theorem ofLayout_end {l : Layout} {gap : List Char} (stands : l.StandsAt 0 (gap ++ []))
    (blank : IsBlank gap) {bound : Nat} (enough : l.cursor.rest.length < bound) :
    TokenStream.ofLayout bound l = ⟨(.streamEnd :: l.tokens).reverse, .tokens⟩ := by
  obtain ⟨front, inFront, advanced⟩ := advance_eq stands blank (fun c head => by cases head)
  obtain ⟨candidates, dropped, optional, -⟩ := dropCandidate_of_optional inFront.stands.optional
  obtain ⟨n, rfl⟩ : ∃ n, bound = n + 1 := ⟨bound - 1, by omega⟩
  have ended : front.readEnd = .ok
      { Layout.push { front with candidates } .streamEnd with
        keyAllowed := false, candidates := [], finished := true } := by
    rw [readEnd, unwind_of_standsAt inFront.stands, dropped]
    rfl
  rw [TokenStream.ofLayout, advanced, readNext, inFront.stands.rest]
  dsimp only
  rw [ended]
  show TokenStream.mk (Token.streamEnd :: front.tokens).reverse .tokens = _
  rw [inFront.tokens]

end Layout

end DataContract.Yaml
