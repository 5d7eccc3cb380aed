import NimbleBrain.Notifications.Types

/- A glob over event names matches by one sweep over the name what its pattern says of the whole name. -/

namespace NimbleBrain.Notifications

/-- The pattern does not go on with a star. -/
def EndsRun (pattern : List Char) : Prop := ∀ char ∈ pattern.head?, char ≠ '*'

/-- A name can be split to match a pattern: a character matches itself, one star a text without a dot, and a longer
run of stars any text. -/
inductive GlobMatch : List Char → List Char → Prop where
  | nil : GlobMatch [] []
  | literal (char : Char) (pattern name : List Char) (plain : char ≠ '*') (rest : GlobMatch pattern name) :
      GlobMatch (char :: pattern) (char :: name)
  | star (taken pattern name : List Char) (ends : EndsRun pattern) (within : '.' ∉ taken)
      (rest : GlobMatch pattern name) : GlobMatch ('*' :: pattern) (taken ++ name)
  | stars (run : Nat) (taken pattern name : List Char) (long : 2 ≤ run) (ends : EndsRun pattern)
      (rest : GlobMatch pattern name) : GlobMatch (List.replicate run '*' ++ pattern) (taken ++ name)

/-- What a list of tokens matches. -/
def TokensMatch : List GlobToken → List Char → Prop
  | [], name => name = []
  | .literal char :: tokens, name => ∃ rest, name = char :: rest ∧ TokensMatch tokens rest
  | .wildcard crossesDot :: tokens, name =>
      ∃ taken rest, name = taken ++ rest ∧ (crossesDot = false → '.' ∉ taken) ∧ TokensMatch tokens rest

variable {token : GlobToken} {tokens : List GlobToken} {char : Char} {name rest : List Char}

theorem tokensMatch_skip (wildcard : token.isWildcard = true) (matched : TokensMatch tokens name) :
    TokensMatch (token :: tokens) name := by
  cases token with
  | literal _ => cases wildcard
  | wildcard crossesDot => exact ⟨[], name, rfl, fun _ => List.not_mem_nil, matched⟩

theorem tokensMatch_nil (matched : TokensMatch (token :: tokens) []) :
    token.isWildcard = true ∧ TokensMatch tokens [] := by
  cases token with
  | literal _ =>
      obtain ⟨rest, empty, _⟩ := matched
      cases empty
  | wildcard _ =>
      obtain ⟨taken, rest, empty, _, matched⟩ := matched
      obtain ⟨_, rfl⟩ := List.append_eq_nil_iff.mp empty.symm
      exact ⟨rfl, matched⟩

/-- A wildcard takes the first character and stays, or hands over before it. -/
theorem tokensMatch_cons :
    TokensMatch (token :: tokens) (char :: name) ↔
      token = .literal char ∧ TokensMatch tokens name ∨
        token.stays char = true ∧ TokensMatch (token :: tokens) name ∨
        token.isWildcard = true ∧ TokensMatch tokens (char :: name) := by
  cases token with
  | literal other =>
      simp only [TokensMatch, List.cons.injEq, GlobToken.literal.injEq, GlobToken.stays, GlobToken.isWildcard,
        Bool.false_eq_true, false_and, or_false]
      constructor
      · rintro ⟨rest, ⟨rfl, rfl⟩, matched⟩
        exact ⟨rfl, matched⟩
      · rintro ⟨rfl, matched⟩
        exact ⟨name, ⟨rfl, rfl⟩, matched⟩
  | wildcard crossesDot =>
      simp only [GlobToken.stays, GlobToken.isWildcard, reduceCtorEq, false_and, false_or, true_and]
      constructor
      · rintro ⟨taken, rest, split, within, matched⟩
        cases taken with
        | nil => exact .inr (split ▸ matched)
        | cons first taken =>
            obtain ⟨rfl, rfl⟩ := List.cons.inj split
            refine .inl ⟨?_, taken, rest, rfl, fun single => List.not_mem_of_not_mem_cons (within single), matched⟩
            cases crossesDot with
            | true => rfl
            | false =>
                have other : char ≠ '.' := fun dot => within rfl (dot ▸ List.mem_cons_self)
                simpa using other
      · rintro (⟨stays, taken, rest, rfl, within, matched⟩ | matched)
        · refine ⟨char :: taken, rest, rfl, fun single => ?_, matched⟩
          subst single
          have other : char ≠ '.' := by simpa using stays
          exact List.not_mem_cons_of_ne_of_not_mem (Ne.symm other) (within rfl)
        · exact ⟨[], char :: name, rfl, fun _ => List.not_mem_nil, matched⟩

/-- Some live position matches the rest of the name. -/
def Accepts : List GlobToken → List Bool → List Char → Prop
  | [], reachable, name => reachable.headD false = true ∧ name = []
  | token :: tokens, reachable, name =>
      reachable.headD false = true ∧ TokensMatch (token :: tokens) name ∨ Accepts tokens reachable.tail name

/-- After a live wildcard the next position is live. -/
def Closed : List GlobToken → List Bool → Prop
  | [], _ => True
  | token :: tokens, reachable =>
      (reachable.headD false = true → token.isWildcard = true → reachable.tail.headD false = true) ∧
        Closed tokens reachable.tail

variable {reachable : List Bool}

theorem accepts_of_head (live : reachable.headD false = true) (matched : TokensMatch tokens name) :
    Accepts tokens reachable name := by
  cases tokens with
  | nil => exact ⟨live, matched⟩
  | cons token tokens => exact .inl ⟨live, matched⟩

@[simp] theorem headD_advance (carry : Bool) :
    (advancePastEmptyWildcards tokens carry reachable).headD false = (reachable.headD false || carry) := by
  cases tokens <;> rfl

theorem closed_advance (carry : Bool) : Closed tokens (advancePastEmptyWildcards tokens carry reachable) := by
  induction tokens generalizing carry reachable with
  | nil => trivial
  | cons token tokens ih =>
      refine ⟨fun live wildcard => ?_, ih _⟩
      rw [headD_advance] at live
      simp only [advancePastEmptyWildcards, List.tail_cons, headD_advance]
      rw [live, wildcard]
      exact Bool.or_true _

/-- Skipping wildcards adds no name. -/
theorem accepts_advance (carry : Bool) :
    Accepts tokens (advancePastEmptyWildcards tokens carry reachable) name ↔
      Accepts tokens reachable name ∨ carry = true ∧ TokensMatch tokens name := by
  induction tokens generalizing carry reachable with
  | nil =>
      simp only [Accepts, advancePastEmptyWildcards, List.headD_cons, Bool.or_eq_true, TokensMatch]
      exact or_and_right
  | cons token tokens ih =>
      simp only [Accepts, advancePastEmptyWildcards, List.headD_cons, List.tail_cons, ih, Bool.or_eq_true,
        Bool.and_eq_true]
      have skip : token.isWildcard = true → TokensMatch tokens name → TokensMatch (token :: tokens) name :=
        tokensMatch_skip
      tauto

/-- The live positions after a character match what the earlier ones matched with it. -/
theorem accepts_consume (closed : Closed tokens reachable) (char : Char) (carry : Bool) :
    Accepts tokens (consume char tokens carry reachable) name ↔
      Accepts tokens reachable (char :: name) ∨ carry = true ∧ TokensMatch tokens name := by
  induction tokens generalizing carry reachable with
  | nil => simp [Accepts, consume, TokensMatch]
  | cons token tokens ih =>
      obtain ⟨handsOver, closed⟩ := closed
      have next : reachable.headD false = true → token.isWildcard = true → TokensMatch tokens (char :: name) →
          Accepts tokens reachable.tail (char :: name) :=
        fun live wildcard => accepts_of_head (handsOver live wildcard)
      simp only [Accepts, consume, List.headD_cons, List.tail_cons, ih closed, Bool.or_eq_true, Bool.and_eq_true,
        decide_eq_true_eq, tokensMatch_cons]
      tauto

theorem closed_globStep (reachable : List Bool) (char : Char) : Closed tokens (globStep tokens reachable char) :=
  closed_advance false

theorem accepts_globStep (closed : Closed tokens reachable) (char : Char) :
    Accepts tokens (globStep tokens reachable char) name ↔ Accepts tokens reachable (char :: name) := by
  simp [globStep, accepts_advance, accepts_consume closed]

/-- The sweep reads the name one character at a time. -/
theorem accepts_foldl (closed : Closed tokens reachable) (read : List Char) :
    Accepts tokens (read.foldl (globStep tokens) reachable) name ↔ Accepts tokens reachable (read ++ name) := by
  induction read generalizing reachable with
  | nil => rfl
  | cons char read ih =>
      rw [List.foldl_cons, ih (closed_globStep reachable char), accepts_globStep closed]
      rfl

theorem closed_foldl (closed : Closed tokens reachable) (read : List Char) :
    Closed tokens (read.foldl (globStep tokens) reachable) := by
  induction read generalizing reachable with
  | nil => exact closed
  | cons char read ih => exact ih (closed_globStep reachable char)

/-- Only the last position matches the end of the name by itself. -/
theorem accepts_nil (closed : Closed tokens reachable) :
    Accepts tokens reachable [] ↔ reachable.getD tokens.length false = true := by
  induction tokens generalizing reachable with
  | nil => cases reachable <;> simp [Accepts]
  | cons token tokens ih =>
      obtain ⟨handsOver, closed⟩ := closed
      have shift : reachable.getD (token :: tokens).length false = reachable.tail.getD tokens.length false := by
        cases reachable <;> rfl
      rw [shift, ← ih closed]
      constructor
      · rintro (⟨live, matched⟩ | later)
        · obtain ⟨wildcard, matched⟩ := tokensMatch_nil matched
          exact accepts_of_head (handsOver live wildcard) matched
        · exact later
      · exact .inr

theorem accepts_start : Accepts tokens [true] name ↔ TokensMatch tokens name := by
  have dead : ∀ tokens : List GlobToken, ¬ Accepts tokens [] name := by
    intro tokens
    induction tokens with
    | nil => simp [Accepts]
    | cons token tokens ih => simpa [Accepts] using ih
  cases tokens with
  | nil => simp [Accepts, TokensMatch]
  | cons token tokens => simp [Accepts, dead]

theorem matchesTokens_iff (tokens : List GlobToken) (name : List Char) :
    matchesTokens tokens name = true ↔ TokensMatch tokens name := by
  have closed : Closed tokens (advancePastEmptyWildcards tokens false [true]) := closed_advance false
  have read : Accepts tokens (name.foldl (globStep tokens) (advancePastEmptyWildcards tokens false [true])) [] ↔ _ :=
    accepts_foldl closed name
  rw [accepts_nil (closed_foldl closed name), List.append_nil, accepts_advance, accepts_start] at read
  simpa [matchesTokens] using read

variable {pattern : List Char}

theorem tokensMatch_starRun (run : Nat) (tokens : List GlobToken) :
    TokensMatch (starRun run ++ tokens) name ↔
      ∃ taken rest, name = taken ++ rest ∧ (run = 0 → taken = []) ∧ (run = 1 → '.' ∉ taken) ∧
        TokensMatch tokens rest := by
  unfold starRun
  split
  · next none' =>
      constructor
      · exact fun matched => ⟨[], name, rfl, fun _ => rfl, fun _ => List.not_mem_nil, matched⟩
      · rintro ⟨taken, rest, rfl, empty, _, matched⟩
        rw [empty none']
        exact matched
  · next some' =>
      simp only [List.cons_append, List.nil_append, TokensMatch, decide_eq_false_iff_not]
      constructor
      · rintro ⟨taken, rest, split, within, matched⟩
        exact ⟨taken, rest, split, fun none' => absurd none' some', fun one => within (by omega), matched⟩
      · rintro ⟨taken, rest, split, _, within, matched⟩
        exact ⟨taken, rest, split, fun short => within (by omega), matched⟩

theorem replicate_star_inj {other : List Char} (ends : EndsRun pattern) (otherEnds : EndsRun other) (run longer : Nat)
    (same : List.replicate run '*' ++ pattern = List.replicate longer '*' ++ other) :
    run = longer ∧ pattern = other := by
  induction run generalizing longer with
  | zero =>
      cases longer with
      | zero => exact ⟨rfl, same⟩
      | succ longer =>
          rw [List.replicate_zero, List.nil_append, List.replicate_succ, List.cons_append] at same
          exact absurd rfl (ends '*' (by simp [same]))
  | succ run ih =>
      cases longer with
      | zero =>
          rw [List.replicate_zero, List.nil_append, List.replicate_succ, List.cons_append] at same
          exact absurd rfl (otherEnds '*' (by simp [← same]))
      | succ longer =>
          rw [List.replicate_succ, List.replicate_succ, List.cons_append, List.cons_append] at same
          obtain ⟨rfl, rest⟩ := ih longer (List.cons.inj same).2
          exact ⟨rfl, rest⟩

/-- A run of stars before a pattern that ends it. -/
theorem globMatch_run (ends : EndsRun pattern) {run : Nat} :
    GlobMatch (List.replicate run '*' ++ pattern) name ↔
      ∃ taken rest, name = taken ++ rest ∧ (run = 0 → taken = []) ∧ (run = 1 → '.' ∉ taken) ∧
        GlobMatch pattern rest := by
  constructor
  · intro matched
    generalize whole : List.replicate run '*' ++ pattern = stars at matched
    have plain : EndsRun stars → run = 0 ∧ pattern = stars := fun otherEnds => by
      obtain ⟨none', same⟩ := replicate_star_inj ends otherEnds run 0 whole
      exact ⟨none', same⟩
    cases matched with
    | nil =>
        obtain ⟨rfl, rfl⟩ := plain nofun
        exact ⟨[], [], rfl, fun _ => rfl, nofun, .nil⟩
    | literal char _ name other rest =>
        obtain ⟨rfl, rfl⟩ := plain fun _ first => by
          obtain rfl := Option.some.inj first
          exact other
        exact ⟨[], char :: name, rfl, fun _ => rfl, nofun, .literal char _ name other rest⟩
    | star taken after name otherEnds within rest =>
        obtain ⟨rfl, rfl⟩ := replicate_star_inj ends otherEnds run 1 whole
        exact ⟨taken, name, rfl, nofun, fun _ => within, rest⟩
    | stars longer taken after name long otherEnds rest =>
        obtain ⟨rfl, rfl⟩ := replicate_star_inj ends otherEnds run longer whole
        exact ⟨taken, name, rfl, fun none' => by omega, fun one => by omega, rest⟩
  · rintro ⟨taken, rest, rfl, empty, within, matched⟩
    match run with
    | 0 =>
        rw [empty rfl]
        exact matched
    | 1 => exact .star taken pattern rest ends (within rfl) matched
    | run + 2 => exact .stars (run + 2) taken pattern rest (by omega) ends matched

theorem globMatch_nil : GlobMatch [] name ↔ name = [] := by
  constructor
  · intro matched
    generalize whole : [] = glob at matched
    cases matched with
    | nil => rfl
    | literal _ _ _ _ _ => cases whole
    | star _ _ _ _ _ _ => cases whole
    | stars run _ _ _ long _ _ =>
        obtain ⟨run, rfl⟩ := Nat.exists_eq_add_of_le' long
        cases whole
  · rintro rfl
    exact .nil

theorem globMatch_literal {char : Char} (plain : char ≠ '*') :
    GlobMatch (char :: pattern) name ↔ ∃ rest, name = char :: rest ∧ GlobMatch pattern rest := by
  constructor
  · intro matched
    have ends : EndsRun (char :: pattern) := fun _ first => Option.some.inj first ▸ plain
    generalize whole : char :: pattern = glob at matched ends
    cases matched with
    | nil => cases whole
    | literal other after name _ rest =>
        obtain ⟨rfl, rfl⟩ := List.cons.inj whole
        exact ⟨name, rfl, rest⟩
    | star taken after name _ _ _ => exact absurd rfl (ends '*' rfl)
    | stars run taken after name long _ _ =>
        obtain ⟨run, rfl⟩ := Nat.exists_eq_add_of_le' long
        exact absurd rfl (ends '*' rfl)
  · rintro ⟨rest, rfl, matched⟩
    exact .literal char pattern rest plain matched

/-- The tokens of a pattern match what the pattern says. -/
theorem tokensMatch_tokenize (run : Nat) (pattern name : List Char) :
    TokensMatch (tokenize run pattern) name ↔ GlobMatch (List.replicate run '*' ++ pattern) name := by
  induction pattern generalizing run name with
  | nil =>
      have ends : EndsRun [] := by simp [EndsRun]
      rw [tokenize, ← List.append_nil (starRun run), tokensMatch_starRun, globMatch_run ends]
      simp only [TokensMatch, globMatch_nil]
  | cons char pattern ih =>
      rw [tokenize]
      split
      · next star =>
          subst star
          rw [ih, List.replicate_succ', List.append_assoc]
          rfl
      · next plain =>
          have ends : EndsRun (char :: pattern) := fun _ first => Option.some.inj first ▸ plain
          rw [tokensMatch_starRun, globMatch_run ends]
          simp only [globMatch_literal plain, TokensMatch, ih, List.replicate_zero, List.nil_append]

/-- An omitted pattern matches every name, and so does an empty one. -/
theorem matchesNameGlob_iff (name : String) (pattern : Option String) :
    matchesNameGlob name pattern = true ↔
      ∀ glob ∈ pattern, glob ≠ "" → GlobMatch glob.toList name.toList := by
  cases pattern with
  | none => simp [matchesNameGlob]
  | some glob =>
      have tokens := (matchesTokens_iff (tokenize 0 glob.toList) name.toList).trans
        (tokensMatch_tokenize 0 glob.toList name.toList)
      simp only [matchesNameGlob, Bool.or_eq_true, decide_eq_true_eq, tokens, List.replicate_zero, List.nil_append,
        Option.mem_def, Option.some.injEq, forall_eq']
      exact or_iff_not_imp_left

end NimbleBrain.Notifications
