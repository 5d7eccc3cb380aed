import NimbleBrain.Credentials.RefreshShared

/- A refresh token is spent by one exchange at a time, and not again while the answer is replayed. -/

namespace NimbleBrain.Credentials.RefreshFetch

open Library

variable {Body Digest : Type} [DecidableEq Digest] {host : Host Body Digest}

def Exchange.inFlight (exchange : Exchange Body) : Bool :=
  match exchange.phase with
  | .posting | .sleeping | .reading _ => true
  | _ => false

/-- What is asked of every state. -/
structure SpentOnce (host : Host Body Digest) (state : State Body Digest) : Prop where
  single : ∀ (first second : Nat) (one other : Exchange Body), state.runs[first]? = some one →
    state.runs[second]? = some other → one.url = other.url → one.token = other.token → one.inFlight = true → other.inFlight = true → first = second
  quiet : ∀ action next, step host state action = some next → ∀ post, next.posts = state.posts ++ [post] →
    ∀ one ∈ state.runs, one.url = post.url → one.token = post.token → ∀ result time,
      one.result? = some (result, time) → result.succeeds = true → time + refreshReplayMs ≤ state.now
  replayed : ∀ maxAttempts url form token next, refreshGrantToken form = some token →
    step host state (.request maxAttempts url form) = some next → ∀ run one result time, state.runs[run]? = some one →
      one.url = url → one.token = token → one.result? = some (result, time) → result.succeeds = true →
        state.now < time + refreshReplayMs → next.requests = state.requests ++ [{ run := run, found := some result }]
  answered : ∀ waiting ∈ state.requests, ∀ answer, waiting.answer = some answer → ∃ one result time,
    state.runs[waiting.run]? = some one ∧ one.result? = some (result, time) ∧
      (∀ status body, result = .snapshot status body → answer = .response status body) ∧
      (result = .failed → answer = .error)
  bounded : ∀ run one, state.runs[run]? = some one → one.posts ≤ one.maxAttempts ∧
    (state.posts.countP fun post => post.run = run) = one.posts ∧
      ∀ outcome ∈ one.outcomes.take (one.posts - 1), outcome.isTransient host = true
  fresh : ∀ waiting ∈ state.requests, ∀ result, waiting.found = some result → result.succeeds = true
  refusals : ∀ token error, refreshTokenRefusal host state token = some error →
    ∃ one ∈ state.runs, one.token = token ∧ ∃ status body time, one.result? = some (.snapshot status body, time) ∧
      isOk status = false ∧ isTransientRefreshFailure status (host.errorOf body) = false
  readable : ∀ run one status body time entry, state.runs[run]? = some one →
    one.result? = some (.snapshot status body, time) → isOk status = true →
      state.exchanges.get? (exchangeKey host one.url one.token) = some entry → entry.run = run →
        (∀ expiry, entry.expiresAt = some expiry → state.now < expiry) →
          (spentRefreshTokenHash host state (issuedToken host one.token body)).isSome = true

/-- The POSTs of an exchange are counted. All but the last failed for now. -/
def Counted (host : Host Body Digest) (exchange : Exchange Body) : Prop :=
  match exchange.phase with
  | .posting => exchange.posts = exchange.outcomes.length + 1 ∧ exchange.posts ≤ exchange.maxAttempts ∧
      ∀ outcome ∈ exchange.outcomes, outcome.isTransient host = true
  | .sleeping => exchange.posts = exchange.outcomes.length ∧ exchange.posts < exchange.maxAttempts ∧
      ∀ outcome ∈ exchange.outcomes, outcome.isTransient host = true
  | _ => exchange.posts = exchange.outcomes.length ∧ exchange.posts ≤ exchange.maxAttempts ∧
      ∀ outcome ∈ exchange.outcomes.dropLast, outcome.isTransient host = true

structure Logged (host : Host Body Digest) (state : State Body Digest) : Prop where
  counted : ∀ run one, state.runs[run]? = some one → Counted host one ∧
    (state.posts.countP fun post => post.run = run) = one.posts
  among : ∀ post ∈ state.posts, post.run < state.runs.length

structure Waits (state : State Body Digest) (waiting : Request Body) : Prop where
  joined : waiting.run < state.runs.length
  fresh : ∀ result, waiting.found = some result → result.succeeds = true
  answered : ∀ answer, waiting.answer = some answer → ∃ one result time, state.runs[waiting.run]? = some one ∧
    one.result? = some (result, time) ∧
      (∀ status body, result = .snapshot status body → answer = .response status body) ∧
      (result = .failed → answer = .error)

/-- A refusal is that of an exchange which spent the token. -/
def Refused (host : Host Body Digest) (state : State Body Digest) (key : Digest) : Prop :=
  ∃ one ∈ state.runs, refreshTokenHash host one.token = key ∧ ∃ status body time,
    one.result? = some (.snapshot status body, time) ∧ isOk status = false ∧
      isTransientRefreshFailure status (host.errorOf body) = false

structure Sound (host : Host Body Digest) (state : State Body Digest) : Prop where
  shared : Shared host state
  logged : Logged host state
  waits : ∀ waiting ∈ state.requests, Waits state waiting
  refused : ∀ key refusal, state.refused.get? key = some refusal → Refused host state key

section Growth

variable {next state : State Body Digest}

omit [DecidableEq Digest] in
theorem Waits.grows {waiting : Request Body} (waits : Waits state waiting) (grows : Grows state.runs next.runs) :
    Waits next waiting := by
  refine ⟨?_, waits.fresh, fun answer given => ?_⟩
  · obtain ⟨other, found, -⟩ := grows waiting.run _ (List.getElem?_eq_getElem waits.joined)
    exact (List.getElem?_eq_some_iff.mp found).1
  · obtain ⟨one, result, time, found, settled, good, bad⟩ := waits.answered answer given
    obtain ⟨other, found', -, keeps⟩ := grows waiting.run one found
    exact ⟨other, result, time, found', keeps _ settled, good, bad⟩

omit [DecidableEq Digest] in
theorem Refused.grows {key : Digest} (refused : Refused host state key) (grows : Grows state.runs next.runs) :
    Refused host next key := by
  obtain ⟨one, listed, same, status, body, time, settled, bad⟩ := refused
  obtain ⟨run, found⟩ := List.getElem?_of_mem listed
  obtain ⟨other, found', token, keeps⟩ := grows run one found
  exact ⟨other, List.mem_of_getElem? found', token ▸ same, status, body, time, keeps _ settled, bad⟩

end Growth

section Kept

variable {state next : State Body Digest}

variable {one other : Exchange Body} {run maxAttempts : Nat} {url : String}

omit [DecidableEq Digest] in
theorem Logged.put (logged : Logged host state) (found : state.runs[run]? = some one)
    (posts : other.posts = one.posts) (counted : Counted host other) (runs : next.runs = state.runs.set run other)
    (log : next.posts = state.posts) : Logged host next := by
  obtain ⟨inside, -⟩ := List.getElem?_eq_some_iff.mp found
  refine ⟨fun place old listed => ?_, fun post member => ?_⟩
  · rw [runs] at listed
    rw [log]
    by_cases same : run = place
    · subst same
      rw [List.getElem?_set_self inside] at listed
      obtain rfl := Option.some.inj listed
      exact ⟨counted, (logged.counted run one found).2.trans posts.symm⟩
    · rw [List.getElem?_set_ne same] at listed
      exact logged.counted place old listed
  · rw [runs, List.length_set]
    exact logged.among post (log ▸ member)

/-- A step that changes one exchange only. -/
theorem Sound.put (sound : Sound host state)
    (found : state.runs[run]? = some one) (shared : Shared host next) (token : other.token = one.token)
    (keeps : ∀ settled, one.result? = some settled → other.result? = some settled) (posts : other.posts = one.posts)
    (counted : Counted host other) (runs : next.runs = state.runs.set run other) (log : next.posts = state.posts)
    (requests : next.requests = state.requests)
    (refused : ∀ key refusal, next.refused.get? key = some refusal →
      state.refused.get? key = some refusal ∨ Refused host next key) : Sound host next := by
  have grows : Grows state.runs next.runs := runs ▸ Grows.set found token keeps
  refine ⟨shared, sound.logged.put found posts counted runs log, ?_, ?_⟩
  · intro waiting member
    exact (sound.waits waiting (requests ▸ member)).grows grows
  · intro key refusal listed
    rcases refused key refusal listed with before | new
    · exact (sound.refused key refusal before).grows grows
    · exact new

omit [DecidableEq Digest] in
theorem counted_answer (counted : Counted host one) (phase : one.phase = .posting) (now : Nat)
    (outcome : Outcome Body) : Counted host (runRefreshAttempt host one now outcome) := by
  rw [Counted, phase] at counted
  obtain ⟨posts, bound, failed⟩ := counted
  have long : (one.outcomes ++ [outcome]).length = one.posts := by rw [List.length_append, posts]; rfl
  have front : (one.outcomes ++ [outcome]).dropLast = one.outcomes := List.dropLast_concat
  have ends (result : Phase Body) (settles : result ≠ .posting ∧ result ≠ .sleeping) :
      Counted host { one with outcomes := one.outcomes ++ [outcome], phase := result } := by
    cases result with
    | posting => exact absurd rfl settles.1
    | sleeping => exact absurd rfl settles.2
    | reading res => exact ⟨long.symm, bound, by rwa [front]⟩
    | settled result time => exact ⟨long.symm, bound, by rwa [front]⟩
    | stamped result time => exact ⟨long.symm, bound, by rwa [front]⟩
  have waits (more : one.posts < one.maxAttempts) (transient : outcome.isTransient host = true) :
      Counted host { one with outcomes := one.outcomes ++ [outcome], phase := .sleeping } :=
    ⟨long.symm, more, List.forall_mem_append.mpr ⟨failed, List.forall_mem_singleton.mpr transient⟩⟩
  cases outcome with
  | response res =>
      rw [runRefreshAttempt]
      split_ifs with retry
      · simp only [Bool.and_eq_true, Bool.not_eq_true', decide_eq_false_iff_not] at retry
        exact waits (Nat.lt_of_not_le retry.1) retry.2
      · exact ends _ ⟨nofun, nofun⟩
  | network =>
      rw [runRefreshAttempt]
      split_ifs with last
      · exact ends _ ⟨nofun, nofun⟩
      · exact waits (Nat.lt_of_not_le (by simpa using last)) rfl

theorem Sound.answer (sound : Sound host state) {outcome : Outcome Body}
    (stepped : step host state (.answer run outcome) = some next) : Sound host next := by
  obtain ⟨one, found, phase, rfl⟩ := step_answer stepped
  have plain : one.isStamped = false := by rw [Exchange.isStamped, phase]
  have counted := counted_answer (sound.logged.counted run one found).1 phase state.now outcome
  have ends : (runRefreshAttempt host one state.now outcome).isStamped = false ∧
      Settled host state (runRefreshAttempt host one state.now outcome) := by
    cases outcome with
    | response res =>
        rw [runRefreshAttempt]
        split_ifs
        · exact ⟨rfl, .of_unsettled rfl⟩
        · exact ⟨rfl, .of_unsettled rfl⟩
    | network =>
        rw [runRefreshAttempt]
        split_ifs
        · exact ⟨rfl, .of_failed rfl⟩
        · exact ⟨rfl, .of_unsettled rfl⟩
  generalize same : runRefreshAttempt host one state.now outcome = other at counted ends
  have url : other.url = one.url := same ▸ rfl
  have token : other.token = one.token := same ▸ rfl
  refine sound.put found ?_ token ?_ (same ▸ rfl) counted rfl rfl rfl fun _ _ => .inl
  · exact sound.shared.advance found plain ends.1 url token rfl rfl (.of_eq rfl) rfl (ends.2.keep rfl (.of_eq rfl))
  · intro settled same
    rw [Exchange.result?, phase] at same
    cases same

theorem Sound.wake (sound : Sound host state) (stepped : step host state (.wake run) = some next) :
    Sound host next := by
  obtain ⟨one, found, phase, rfl⟩ := step_wake stepped
  obtain ⟨inside, -⟩ := List.getElem?_eq_some_iff.mp found
  have plain : one.isStamped = false := by rw [Exchange.isStamped, phase]
  obtain ⟨counted, count⟩ := sound.logged.counted run one found
  rw [Counted, phase] at counted
  obtain ⟨posts, more, failed⟩ := counted
  have grows : Grows state.runs (state.runs.set run { one with posts := one.posts + 1, phase := .posting }) := by
    refine Grows.set found rfl fun settled same => ?_
    rw [Exchange.result?, phase] at same
    cases same
  refine ⟨?_, ⟨fun place old listed => ?_, fun post member => ?_⟩, ?_, ?_⟩
  · generalize same : ({ one with posts := one.posts + 1, phase := .posting } : Exchange Body) = other
    have unsettled : other.result? = none := same ▸ rfl
    exact sound.shared.advance found plain (same ▸ rfl) (same ▸ rfl) (same ▸ rfl) rfl rfl (.of_eq rfl) rfl
      (.of_unsettled unsettled)
  · change (state.runs.set run _)[place]? = some old at listed
    dsimp only
    rw [List.countP_append]
    by_cases same : run = place
    · subst same
      rw [List.getElem?_set_self inside] at listed
      obtain rfl := Option.some.inj listed
      exact ⟨⟨congrArg (· + 1) posts, more, failed⟩, by simp [count]⟩
    · rw [List.getElem?_set_ne same] at listed
      obtain ⟨own, kept⟩ := sound.logged.counted place old listed
      exact ⟨own, by simp [kept, same]⟩
  · change post.run < (state.runs.set run _).length
    rw [List.length_set]
    rcases List.mem_append.mp member with before | new
    · exact sound.logged.among post before
    · exact List.mem_singleton.mp new ▸ inside
  · intro waiting member
    exact (sound.waits waiting member).grows grows
  · intro key refusal listed
    exact (sound.refused key refusal listed).grows grows

/-- A response that is read leaves a record, of the token that it issued or of its refusal. -/
structure Recorded (host : Host Body Digest) (state next : State Body Digest) (spent : String) (status : Nat)
    (body : Body) : Prop where
  frame : next.now = state.now ∧ next.runs = state.runs ∧ next.exchanges = state.exchanges ∧
    next.requests = state.requests ∧ next.posts = state.posts
  records : Records host state next
  issued : isOk status = true → OnRecord host next spent body (state.now + 2 * refreshReplayMs)
  refused : ∀ key refusal, next.refused.get? key = some refusal → state.refused.get? key = some refusal ∨
    key = refreshTokenHash host spent ∧ isOk status = false ∧
      isTransientRefreshFailure status (host.errorOf body) = false

theorem recordSettled_recorded (state : State Body Digest) (spent : String) (status : Nat) (body : Body) :
    Recorded host state (recordSettled host state spent status body) spent status body := by
  rw [recordSettled]
  split_ifs with good transient
  · refine ⟨⟨rfl, rfl, rfl, rfl, rfl⟩, ?_, fun _ => ?_, fun _ _ => .inl⟩
    · rintro spent' body' expiry bound ⟨record, found, late⟩
      by_cases same : refreshTokenHash host (issuedToken host spent' body') =
          refreshTokenHash host (issuedToken host spent body)
      · refine ⟨_, (OrderedMap.get?_set _ _ _).trans (if_pos same), bound⟩
      · exact ⟨record, ((OrderedMap.get?_set _ _ _).trans (if_neg same)).trans found, late⟩
    · exact ⟨_, OrderedMap.get?_set_self _ _, Nat.le_refl _⟩
  · exact ⟨⟨rfl, rfl, rfl, rfl, rfl⟩, .of_eq rfl, fun ok => absurd ok good, fun _ _ => .inl⟩
  · refine ⟨⟨rfl, rfl, rfl, rfl, rfl⟩, .of_eq rfl, fun ok => absurd ok good, fun key refusal listed => ?_⟩
    rw [OrderedMap.get?_set] at listed
    split at listed
    · next same => exact .inr ⟨same, by simpa using good, by simpa using transient⟩
    · exact .inl listed

theorem Sound.read (sound : Sound host state) (met : meets host state (.read run) = true)
    (stepped : step host state (.read run) = some next) : Sound host next := by
  obtain ⟨one, res, found, phase, cases_⟩ := step_read stepped
  have plain : one.isStamped = false := by rw [Exchange.isStamped, phase]
  have counted := (sound.logged.counted run one found).1
  rw [Counted, phase] at counted
  have unsettled : ∀ settled, one.result? ≠ some settled := by
    intro settled same
    rw [Exchange.result?, phase] at same
    cases same
  rcases cases_ with ⟨-, rfl⟩ | ⟨body, whole, rfl⟩
  · generalize same : ({ one with phase := .settled .failed state.now } : Exchange Body) = other
    have settled : Settled host state other := .of_failed (by rw [← same])
    have counted' : Counted host other := by rw [← same]; exact counted
    refine sound.put found ?_ (same ▸ rfl) (fun settled before => absurd before (unsettled settled)) (same ▸ rfl)
      counted' rfl rfl rfl fun _ _ => .inl
    exact sound.shared.advance found plain (same ▸ rfl) (same ▸ rfl) (same ▸ rfl) rfl rfl (.of_eq rfl) rfl
      (settled.keep rfl (.of_eq rfl))
  · obtain ⟨⟨now, runs, maps, requests, log⟩, records, issued, refused⟩ :=
      @recordSettled_recorded _ _ _ host state one.token res.status body
    have made : isConstructible res.status = true := by
      rw [meets, found] at met
      simpa [Exchange.fits, phase, whole] using met
    generalize recordSettled host state one.token res.status body = recorded at *
    generalize same : ({ one with phase := .settled (.snapshot res.status body) state.now } : Exchange Body) = other
    have phase' : other.phase = .settled (.snapshot res.status body) state.now := by rw [← same]
    have token : other.token = one.token := same ▸ rfl
    have settled : Settled host (recorded.put run other) other := by
      have result := result?_of_settled phase'
      refine ⟨fun _ _ again => ?_, fun _ _ _ again => ?_, fun _ _ again => ?_, fun _ _ _ again good => ?_⟩
      · cases result.symm.trans again
        exact Nat.le_of_eq now.symm
      · cases result.symm.trans again
        exact made
      · cases phase'.symm.trans again
        change recorded.now ≤ _
        rw [now]
        exact Nat.le_add_right _ _
      · cases phase'.symm.trans again
        exact token ▸ issued good
    have counted' : Counted host other := by rw [← same]; exact counted
    refine sound.put found ?_ token (fun settled before => absurd before (unsettled settled)) (same ▸ rfl) counted'
      (by change recorded.runs.set run other = _; rw [runs]) log requests fun key refusal listed => ?_
    · exact sound.shared.advance found plain (same ▸ rfl) (same ▸ rfl) token now maps
        (fun spent body expiry bound onRecord => records spent body expiry bound onRecord)
        (by change recorded.runs.set run other = _; rw [runs]) settled
    · rcases refused key refusal listed with before | ⟨rfl, bad, final⟩
      · exact .inl before
      · obtain ⟨inside, -⟩ := List.getElem?_eq_some_iff.mp found
        refine .inr ⟨other, ?_, by rw [token], res.status, body, state.now, result?_of_settled phase', bad, final⟩
        apply List.mem_of_getElem?
        change (recorded.runs.set run other)[run]? = some other
        rw [runs, List.getElem?_set_self inside]

theorem Sound.react (sound : Sound host state) (stepped : step host state (.react run) = some next) :
    Sound host next := by
  obtain ⟨one, result, time, found, phase, rfl⟩ := step_react stepped
  have shared := sound.shared.react found phase
  have counted := (sound.logged.counted run one found).1
  rw [Counted, phase] at counted
  obtain ⟨-, runs, -, refused, requests, log⟩ := @onSettled_frame _ _ _ host state run one result
  generalize same : ({ one with phase := .stamped result time } : Exchange Body) = other at shared
  have counted' : Counted host other := by rw [← same]; exact counted
  refine sound.put found shared (same ▸ rfl) ?_ (same ▸ rfl) counted'
    (by change (onSettled host state run one result).runs.set run other = _; rw [runs]) log requests ?_
  · intro settled before
    rw [result?_of_settled phase] at before
    rw [← same, ← before]
    rfl
  · intro key refusal listed
    change (onSettled host state run one result).refused.get? key = _ at listed
    exact .inl (refused ▸ listed)

/-- The requests do not count for the map. -/
theorem Shared.asked (shared : Shared host state) (requests : List (Request Body)) :
    Shared host { state with requests := requests } := by
  refine ⟨shared.pending, shared.kept, fun key entry listed => ?_, fun one member => ?_⟩
  · obtain ⟨one, found, same, unexpired, expires⟩ := shared.known key entry listed
    exact ⟨one, found, same, unexpired, fun expiry at_ => (expires expiry at_).keep rfl (.of_eq rfl)⟩
  · exact (shared.settled one member).keep rfl (.of_eq rfl)

/-- One request more, or an answer to one. -/
theorem Sound.asked (sound : Sound host state) {requests : List (Request Body)}
    (waits : ∀ waiting ∈ requests, Waits state waiting) : Sound host { state with requests := requests } :=
  ⟨sound.shared.asked requests, ⟨sound.logged.counted, sound.logged.among⟩,
    fun waiting member => (waits waiting member).grows (Grows.refl _),
    fun key refusal listed => (sound.refused key refusal listed).grows (Grows.refl _)⟩

theorem Sound.deliver (sound : Sound host state) {request : Nat}
    (stepped : step host state (.deliver request) = some next) : Sound host next := by
  obtain ⟨waiting, one, result, time, asked, -, found, phase, rfl⟩ := step_deliver stepped
  refine sound.asked fun other member => ?_
  rcases List.mem_or_eq_of_mem_set member with before | rfl
  · exact sound.waits other before
  · obtain ⟨joined, fresh, -⟩ := sound.waits waiting (List.mem_of_getElem? asked)
    refine ⟨joined, fresh, ?_⟩
    rintro answer ⟨⟩
    have settled := result?_of_stamped phase
    refine ⟨one, result, time, found, settled, ?_, ?_⟩
    · rintro status body rfl
      have made := (sound.shared.settled one (List.mem_of_getElem? found)).made status body time settled
      rw [answerOf, if_pos made]
    · rintro rfl
      rfl

theorem Sound.tick (sound : Sound host state) (met : meets host state .tick = true)
    (stepped : step host state .tick = some next) : Sound host next := by
  obtain rfl := Option.some.inj stepped
  exact ⟨sound.shared.tick met, ⟨sound.logged.counted, sound.logged.among⟩,
    fun waiting member => (sound.waits waiting member).grows (Grows.refl _),
    fun key refusal listed => (sound.refused key refusal listed).grows (Grows.refl _)⟩

theorem Sound.sweep (sound : Sound host state) : Sound host state.sweepExchanges.sweepSettled := by
  refine ⟨sound.shared.sweep, ⟨sound.logged.counted, sound.logged.among⟩,
    fun waiting member => (sound.waits waiting member).grows (Grows.refl _), fun key refusal listed => ?_⟩
  rw [State.sweepSettled, OrderedMap.get?_filterMap, Option.bind_eq_some_iff] at listed
  obtain ⟨before, found, -⟩ := listed
  exact (sound.refused key before found).grows (Grows.refl _)

theorem Sound.start (sound : Sound host state) {token : String}
    (free : state.exchanges.get? (exchangeKey host url token) = none) :
    Sound host (state.start host maxAttempts url token) := by
  have grows : Grows state.runs (state.start host maxAttempts url token).runs := Grows.append _ _
  have none : (state.posts.countP fun post => post.run = state.runs.length) = 0 := by
    rw [List.countP_eq_zero]
    intro post member
    have among := sound.logged.among post member
    simp only [decide_eq_true_eq]
    omega
  refine ⟨sound.shared.start free, ⟨?_, ?_⟩, ?_, ?_⟩
  · intro place old listed
    change (state.runs ++ [_])[place]? = some old at listed
    rw [List.getElem?_append] at listed
    split at listed
    · next before =>
        obtain ⟨counted, count⟩ := sound.logged.counted place old listed
        have other : ¬state.runs.length = place := by omega
        refine ⟨counted, ?_⟩
        rw [State.start]
        dsimp only
        split_ifs <;> simp [count, other]
    · next beyond =>
        obtain ⟨last, same⟩ := List.getElem?_eq_some_iff.mp listed
        rw [List.length_singleton] at last
        obtain rfl : place = state.runs.length := by omega
        rw [List.getElem_singleton] at same
        rw [State.start]
        subst same
        split_ifs with positive
        · exact ⟨⟨rfl, positive, nofun⟩, by simp [none]⟩
        · exact ⟨⟨rfl, Nat.zero_le _, nofun⟩, none⟩
  · intro post member
    change post.run < (state.runs ++ [_]).length
    rw [List.length_append, List.length_singleton]
    rw [State.start] at member
    dsimp only at member
    split_ifs at member
    · rcases List.mem_append.mp member with before | new
      · exact Nat.lt_succ_of_lt (sound.logged.among post before)
      · rw [List.mem_singleton.mp new]
        exact Nat.lt_succ_self _
    · exact Nat.lt_succ_of_lt (sound.logged.among post member)
  · intro waiting member
    rcases List.mem_append.mp member with before | new
    · exact (sound.waits waiting before).grows grows
    · obtain rfl := List.mem_singleton.mp new
      refine ⟨?_, nofun, nofun⟩
      change state.runs.length < (state.runs ++ [_]).length
      rw [List.length_append]
      exact Nat.lt_succ_self _
  · intro key refusal listed
    exact (sound.refused key refusal listed).grows grows

/-- A request finds an entry that a sweep leaves, or begins an exchange. -/
theorem spendOnce_cases (state : State Body Digest) (maxAttempts : Nat) (url token : String) :
    (∃ entry, state.exchanges.get? (exchangeKey host url token) = some entry ∧
        (∀ expiry, entry.expiresAt = some expiry → state.now < expiry) ∧
        spendOnce host state maxAttempts url token = { state.sweepExchanges.sweepSettled with
          requests := state.requests ++ [{
            run := entry.run
            found := ((state.runs[entry.run]?).bind Exchange.result?).map Prod.fst }] }) ∨
      state.sweepExchanges.sweepSettled.exchanges.get? (exchangeKey host url token) = none ∧
        spendOnce host state maxAttempts url token =
          state.sweepExchanges.sweepSettled.start host maxAttempts url token := by
  have map : state.sweepExchanges.sweepSettled.exchanges.get? (exchangeKey host url token) =
      (state.exchanges.get? (exchangeKey host url token)).filter fun entry => !entry.expiresAt.any (· ≤ state.now) :=
    get?_sweepExchanges _
  rw [spendOnce]
  cases found : state.sweepExchanges.sweepSettled.exchanges.get? (exchangeKey host url token) with
  | none => exact .inr ⟨rfl, rfl⟩
  | some entry =>
      rw [found, eq_comm, Option.filter_eq_some_iff] at map
      refine .inl ⟨entry, map.1, fun expiry at_ => ?_, rfl⟩
      simpa [at_] using map.2

theorem Sound.request (sound : Sound host state) {form : Option (List (String × String))}
    (met : meets host state (.request maxAttempts url form) = true)
    (stepped : step host state (.request maxAttempts url form) = some next) : Sound host next := by
  rcases step_request stepped with ⟨-, rfl⟩ | ⟨token, spends, rfl⟩
  · exact sound
  rcases @spendOnce_cases _ _ _ host state maxAttempts url token with ⟨entry, listed, -, same⟩ | ⟨free, same⟩
  · rw [same]
    obtain ⟨one, found, -, unexpired, expires⟩ := sound.shared.known _ entry listed
    refine sound.sweep.asked fun waiting member => ?_
    rcases List.mem_append.mp member with before | new
    · exact (sound.waits waiting before).grows (Grows.refl _)
    · obtain rfl := List.mem_singleton.mp new
      refine ⟨(List.getElem?_eq_some_iff.mp found).1, fun result shown => ?_, nofun⟩
      rw [found, Option.bind_some, Option.map_eq_some_iff] at shown
      obtain ⟨⟨_, time⟩, settled, rfl⟩ := shown
      cases at_ : entry.expiresAt with
      | some expiry =>
          obtain ⟨status, body, time', phase, good, -⟩ := (expires expiry at_).success
          cases settled.symm.trans (result?_of_stamped phase)
          exact good
      | none =>
          have plain := unexpired at_
          rw [meets, spends, Option.all_some, listed, Option.all_some, found, Option.all_some] at met
          rcases phase_of_result? settled with phase | phase
          · simpa [Exchange.failing, phase] using met
          · rw [Exchange.isStamped, phase] at plain
            cases plain
  · rw [same]
    exact sound.sweep.start free

theorem sound_initial : Sound host ({} : State Body Digest) :=
  ⟨⟨nofun, nofun, nofun, nofun⟩, ⟨nofun, nofun⟩, nofun, nofun⟩

theorem Sound.step (sound : Sound host state) {action : Action Body} (met : meets host state action = true)
    (stepped : step host state action = some next) : Sound host next := by
  cases action with
  | request maxAttempts url form => exact sound.request met stepped
  | answer run outcome => exact sound.answer stepped
  | wake run => exact sound.wake stepped
  | read run => exact sound.read met stepped
  | react run => exact sound.react stepped
  | deliver request => exact sound.deliver stepped
  | tick => exact sound.tick met stepped

end Kept

section Guarantees

variable {state : State Body Digest}

variable {one : Exchange Body} {result : Result Body} {run time : Nat} {entry : Entry}
  {next : State Body Digest} {token : String} {body : Body}

/-- While a success is replayed it is the entry of its key. -/
theorem Sound.entry_of_success (sound : Sound host state) (found : state.runs[run]? = some one)
    (settled : one.result? = some (result, time)) (good : result.succeeds = true)
    (window : state.now < time + refreshReplayMs) :
    ∃ entry, state.exchanges.get? (keyOf host one) = some entry ∧ entry.run = run ∧
      ∀ expiry, entry.expiresAt = some expiry → state.now < expiry := by
  rcases phase_of_result? settled with phase | phase
  · have plain : one.isStamped = false := by rw [Exchange.isStamped, phase]
    exact ⟨_, sound.shared.pending run one found plain, rfl, by rintro _ ⟨⟩⟩
  · obtain ⟨expiry, entry, late⟩ := sound.shared.kept run one result time found phase good window
    refine ⟨_, entry, rfl, ?_⟩
    rintro _ ⟨⟩
    omega

theorem Sound.single (sound : Sound host state) {first second : Nat} {other : Exchange Body}
    (found : state.runs[first]? = some one) (found' : state.runs[second]? = some other) (url : one.url = other.url)
    (token : one.token = other.token) (flies : one.inFlight = true) (flies' : other.inFlight = true) :
    first = second := by
  have plain {exchange : Exchange Body} (flies : exchange.inFlight = true) : exchange.isStamped = false := by
    rw [Exchange.inFlight] at flies
    rw [Exchange.isStamped]
    cases phase : exchange.phase <;> simp_all
  have entry := sound.shared.pending first one found (plain flies)
  have entry' := sound.shared.pending second other found' (plain flies')
  rw [keyOf, url, token, ← keyOf, entry'] at entry
  cases entry
  rfl

theorem ne_append_singleton {Item : Type} {items : List Item} {item : Item} (same : items = items ++ [item]) : False := by
  have length := congrArg List.length same
  rw [List.length_append, List.length_singleton] at length
  omega

/-- The entry of a success outlasts a sweep. -/
theorem swept_entry {key : Digest} (listed : state.exchanges.get? key = some entry)
    (fresh : ∀ expiry, entry.expiresAt = some expiry → state.now < expiry) :
    state.sweepExchanges.sweepSettled.exchanges.get? key = some entry := by
  refine (get?_sweepExchanges key).trans ?_
  rw [listed, Option.filter_some]
  cases at_ : entry.expiresAt with
  | none => rfl
  | some expiry => simp [Nat.not_le.mpr (fresh expiry at_)]

theorem Sound.quiet (sound : Sound host state) {action : Action Body}
    (stepped : RefreshFetch.step host state action = some next) {post : Post}
    (sent : next.posts = state.posts ++ [post]) (listed : one ∈ state.runs) (url : one.url = post.url)
    (token : one.token = post.token) (settled : one.result? = some (result, time)) (good : result.succeeds = true) :
    time + refreshReplayMs ≤ state.now := by
  by_contra window
  obtain ⟨run, found⟩ := List.getElem?_of_mem listed
  obtain ⟨entry, own, rfl, fresh⟩ := sound.entry_of_success found settled good (Nat.lt_of_not_le window)
  rw [keyOf, url, token] at own
  cases action with
  | request maxAttempts url' form =>
      rcases step_request stepped with ⟨-, rfl⟩ | ⟨token', -, rfl⟩
      · exact ne_append_singleton sent
      · rcases @spendOnce_cases _ _ _ host state maxAttempts url' token' with ⟨_, -, -, same⟩ | ⟨free, same⟩
        · rw [same] at sent
          exact ne_append_singleton sent
        · rw [same, State.start] at sent
          dsimp only at sent
          split_ifs at sent
          · obtain rfl := List.singleton_inj.mp (List.append_cancel_left sent)
            cases free.symm.trans (swept_entry own fresh)
          · exact ne_append_singleton sent
  | wake run' =>
      obtain ⟨other, found', phase, rfl⟩ := step_wake stepped
      obtain rfl := List.singleton_inj.mp (List.append_cancel_left sent)
      have pending := sound.shared.pending run' other found' (by rw [Exchange.isStamped, phase])
      cases own.symm.trans pending
      cases found.symm.trans found'
      rw [Exchange.result?, phase] at settled
      cases settled
  | answer run' outcome =>
      obtain ⟨_, -, -, rfl⟩ := step_answer stepped
      exact ne_append_singleton sent
  | read run' =>
      obtain ⟨one', res, -, -, ⟨-, rfl⟩ | ⟨body, -, rfl⟩⟩ := step_read stepped
      · exact ne_append_singleton sent
      · have same := (@recordSettled_recorded _ _ _ host state one'.token res.status body).frame.2.2.2.2
        exact ne_append_singleton (same.symm.trans sent)
  | react run' =>
      obtain ⟨one', result', _, -, -, rfl⟩ := step_react stepped
      have same := (@onSettled_frame _ _ _ host state run' one' result').2.2.2.2.2
      exact ne_append_singleton (same.symm.trans sent)
  | deliver request =>
      obtain ⟨_, _, _, _, -, -, -, -, rfl⟩ := step_deliver stepped
      exact ne_append_singleton sent
  | tick =>
      obtain rfl := Option.some.inj stepped
      exact ne_append_singleton sent

theorem Sound.replayed (sound : Sound host state) {maxAttempts : Nat} {url : String}
    {form : Option (List (String × String))} (spends : refreshGrantToken form = some token)
    (stepped : RefreshFetch.step host state (.request maxAttempts url form) = some next)
    (found : state.runs[run]? = some one) (sameUrl : one.url = url) (sameToken : one.token = token)
    (settled : one.result? = some (result, time)) (good : result.succeeds = true)
    (window : state.now < time + refreshReplayMs) :
    next.requests = state.requests ++ [{ run := run, found := some result }] := by
  obtain ⟨entry, own, rfl, fresh⟩ := sound.entry_of_success found settled good window
  rw [keyOf, sameUrl, sameToken] at own
  rcases step_request stepped with ⟨other, -⟩ | ⟨token', spends', rfl⟩
  · cases other.symm.trans spends
  · cases spends'.symm.trans spends
    rcases @spendOnce_cases _ _ _ host state maxAttempts url token with ⟨_, own', -, same⟩ | ⟨free, -⟩
    · cases own.symm.trans own'
      rw [same, found, Option.bind_some, settled]
      rfl
    · cases free.symm.trans (swept_entry own fresh)

theorem Sound.bounded (sound : Sound host state) (found : state.runs[run]? = some one) :
    one.posts ≤ one.maxAttempts ∧ (state.posts.countP fun post => post.run = run) = one.posts ∧
      ∀ outcome ∈ one.outcomes.take (one.posts - 1), outcome.isTransient host = true := by
  obtain ⟨counted, count⟩ := sound.logged.counted run one found
  have ends (done : one.posts = one.outcomes.length ∧ one.posts ≤ one.maxAttempts ∧
      ∀ outcome ∈ one.outcomes.dropLast, outcome.isTransient host = true) :
      one.posts ≤ one.maxAttempts ∧
        ∀ outcome ∈ one.outcomes.take (one.posts - 1), outcome.isTransient host = true := by
    refine ⟨done.2.1, ?_⟩
    rw [done.1, ← List.dropLast_eq_take]
    exact done.2.2
  rw [Counted] at counted
  split at counted
  · exact ⟨counted.2.1, count, fun outcome member => counted.2.2 outcome (List.mem_of_mem_take member)⟩
  · exact ⟨Nat.le_of_lt counted.2.1, count, fun outcome member => counted.2.2 outcome (List.mem_of_mem_take member)⟩
  · exact ⟨(ends counted).1, count, (ends counted).2⟩

theorem OnRecord.readable {spent : String} {expiry : Nat} (onRecord : OnRecord host state spent body expiry) :
    (spentRefreshTokenHash host state (issuedToken host spent body)).isSome = true := by
  obtain ⟨record, listed, -⟩ := onRecord
  rw [spentRefreshTokenHash, listed]
  rfl

theorem Sound.readable (sound : Sound host state) {status : Nat} (found : state.runs[run]? = some one)
    (settled : one.result? = some (.snapshot status body, time)) (good : isOk status = true)
    (own : state.exchanges.get? (exchangeKey host one.url one.token) = some entry) (same : entry.run = run) :
    (spentRefreshTokenHash host state (issuedToken host one.token body)).isSome = true := by
  rcases phase_of_result? settled with phase | phase
  · exact ((sound.shared.settled one (List.mem_of_getElem? found)).recorded status body time phase good).readable
  · obtain ⟨other, found', -, unexpired, expires⟩ := sound.shared.known _ entry own
    rw [same] at found'
    cases found.symm.trans found'
    cases at_ : entry.expiresAt with
    | none =>
        have plain := unexpired at_
        rw [Exchange.isStamped, phase] at plain
        cases plain
    | some expiry =>
        obtain ⟨_, _, _, phase', -, onRecord⟩ := (expires expiry at_).success
        cases phase.symm.trans phase'
        exact onRecord.readable

theorem Sound.refusals (sound : Sound host state) {error : String}
    (refused : refreshTokenRefusal host state token = some error) :
    ∃ one ∈ state.runs, one.token = token ∧ ∃ status body time, one.result? = some (.snapshot status body, time) ∧
      isOk status = false ∧ isTransientRefreshFailure status (host.errorOf body) = false := by
  obtain ⟨refusal, listed, -⟩ := Option.map_eq_some_iff.mp refused
  obtain ⟨one, member, same, status, body, time, settled, bad, final⟩ := sound.refused _ refusal listed
  exact ⟨one, member, host.sha256_injective same, status, body, time, settled, bad, final⟩

theorem Sound.spentOnce (sound : Sound host state) : SpentOnce host state where
  single _ _ _ _ found found' url token flies flies' := sound.single found found' url token flies flies'
  quiet _ _ stepped _ sent _ listed url token _ _ settled good := sound.quiet stepped sent listed url token settled good
  replayed _ _ _ _ _ spends stepped _ _ _ _ found url token settled good window :=
    sound.replayed spends stepped found url token settled good window
  answered waiting member := (sound.waits waiting member).answered
  bounded _ _ found := sound.bounded found
  fresh waiting member := (sound.waits waiting member).fresh
  refusals _ _ refused := sound.refusals refused
  readable _ _ _ _ _ _ found settled good own same _ := sound.readable found settled good own same

theorem sound_of_reachedBy (reached : (system host).ReachedBy (fun state action => meets host state action = true) state) :
    Sound host state := by
  refine reached.invariant (Sound host) ?_ fun _ _ _ sound met stepped => sound.step met stepped
  rintro _ rfl
  exact sound_initial

end Guarantees

/-- A body by the refresh token that it issues and the error that it gives. -/
structure PlainBody where
  refreshToken : Option String := none
  error : Option String := none
  deriving DecidableEq

def plainHost : Host PlainBody String where
  sha256 := id
  sha256_injective := Function.injective_id
  errorOf := PlainBody.error
  refreshTokenOf := PlainBody.refreshToken

def refresh (maxAttempts : Nat) : Action PlainBody :=
  .request maxAttempts "https://auth.example.com/token" (some [("grant_type", "refresh_token"), ("refresh_token", "rt-1")])

/-- Two requests share an exchange, which is tried again once. A third gets its answer a minute long. -/
def rotation : List (Action PlainBody) :=
  [refresh 3, .answer 0 (.response ⟨503, some {}⟩), refresh 3, .wake 0,
    .answer 0 (.response ⟨200, some { refreshToken := some "rt-2" }⟩), .read 0, .react 0, .deliver 0, .deliver 1,
    .tick, refresh 3, .deliver 2]

/-- A vendor answers with a status of its own, for which no response can be made again. -/
def unknownStatus : List (Action PlainBody) :=
  [refresh 1, .answer 0 (.response ⟨999, some {}⟩), .read 0, .react 0, refresh 1]

end NimbleBrain.Credentials.RefreshFetch
