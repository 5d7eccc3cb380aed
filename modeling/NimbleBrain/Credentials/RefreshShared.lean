import NimbleBrain.Credentials.RefreshFetch

/- The map of the exchanges holds those under way and those whose success is replayed. -/

namespace NimbleBrain.Credentials.RefreshFetch

open Library

variable {Body Digest : Type} [DecidableEq Digest] {host : Host Body Digest}

def Result.succeeds : Result Body → Bool
  | .snapshot status _ => isOk status
  | .failed => false

/-- The body of the response that an exchange returns fits its status. -/
def Exchange.fits (exchange : Exchange Body) : Bool :=
  match exchange.phase with
  | .reading res => res.body.isNone || isConstructible res.status
  | _ => true

/-- An exchange has failed, and its callback has not run. -/
def Exchange.failing (exchange : Exchange Body) : Bool :=
  match exchange.phase with
  | .settled result _ => !result.succeeds
  | _ => false

/-- An exchange has settled less than the time of a replay ago, if its callback has not run. -/
def Exchange.prompt (now : Nat) (exchange : Exchange Body) : Bool :=
  match exchange.phase with
  | .settled _ time => now < time + refreshReplayMs
  | _ => true

/-- The returned response can be made again, no request comes between a failure and its callback, and this comes soon. -/
def meets (host : Host Body Digest) (state : State Body Digest) : Action Body → Bool
  | .read run => (state.runs[run]?).all Exchange.fits
  | .request _ url form =>
      (refreshGrantToken form).all fun token =>
        (state.exchanges.get? (exchangeKey host url token)).all fun entry =>
          (state.runs[entry.run]?).all fun exchange => !exchange.failing
  | .tick => state.runs.all (Exchange.prompt state.now)
  | _ => true

def keyOf (host : Host Body Digest) (exchange : Exchange Body) : Digest := exchangeKey host exchange.url exchange.token

def Exchange.isStamped (exchange : Exchange Body) : Bool :=
  match exchange.phase with
  | .stamped _ _ => true
  | _ => false

/-- The token that a success left is on record until some time at least. -/
def OnRecord (host : Host Body Digest) (state : State Body Digest) (spent : String) (body : Body) (expiry : Nat) : Prop :=
  ∃ record, state.issuedBy.get? (refreshTokenHash host (issuedToken host spent body)) = some record ∧
    expiry ≤ record.expiresAt

/-- What holds of an exchange that has settled. -/
structure Settled (host : Host Body Digest) (state : State Body Digest) (exchange : Exchange Body) : Prop where
  past : ∀ result time, exchange.result? = some (result, time) → time ≤ state.now
  made : ∀ status body time, exchange.result? = some (.snapshot status body, time) → isConstructible status = true
  soon : ∀ result time, exchange.phase = .settled result time → state.now ≤ time + refreshReplayMs
  recorded : ∀ status body time, exchange.phase = .settled (.snapshot status body) time → isOk status = true →
    OnRecord host state exchange.token body (time + 2 * refreshReplayMs)

/-- What holds of an entry that has an expiry. -/
structure Expires (host : Host Body Digest) (state : State Body Digest) (exchange : Exchange Body) (expiry : Nat) :
    Prop where
  success : ∃ status body time, exchange.phase = .stamped (.snapshot status body) time ∧ isOk status = true ∧
    OnRecord host state exchange.token body expiry
  soon : expiry ≤ state.now + refreshReplayMs

/-- The exchanges of the map are those under way and those whose success is replayed. -/
structure Shared (host : Host Body Digest) (state : State Body Digest) : Prop where
  pending : ∀ run one, state.runs[run]? = some one → one.isStamped = false →
    state.exchanges.get? (keyOf host one) = some ⟨run, none⟩
  kept : ∀ run one result time, state.runs[run]? = some one → one.phase = .stamped result time →
    result.succeeds = true → state.now < time + refreshReplayMs →
      ∃ expiry, state.exchanges.get? (keyOf host one) = some ⟨run, some expiry⟩ ∧ time + refreshReplayMs ≤ expiry
  known : ∀ key entry, state.exchanges.get? key = some entry → ∃ one, state.runs[entry.run]? = some one ∧
    keyOf host one = key ∧ (entry.expiresAt = none → one.isStamped = false) ∧
      ∀ expiry, entry.expiresAt = some expiry → Expires host state one expiry
  settled : ∀ one ∈ state.runs, Settled host state one

variable {state next : State Body Digest}

variable {maxAttempts : Nat} {url : String}

theorem step_request {form : Option (List (String × String))}
    (stepped : step host state (.request maxAttempts url form) = some next) :
    (refreshGrantToken form = none ∧ next = state) ∨
      ∃ token, refreshGrantToken form = some token ∧ next = spendOnce host state maxAttempts url token := by
  rw [step] at stepped
  split at stepped
  · next other => exact .inl ⟨other, (Option.some.inj stepped).symm⟩
  · next token spends => exact .inr ⟨token, spends, (Option.some.inj stepped).symm⟩

variable {run : Nat}

theorem step_answer {outcome : Outcome Body} (stepped : step host state (.answer run outcome) = some next) :
    ∃ one, state.runs[run]? = some one ∧ one.phase = .posting ∧
      next = state.put run (runRefreshAttempt host one state.now outcome) := by
  rw [step] at stepped
  split at stepped
  · cases stepped
  · next one found =>
      split at stepped
      · next phase => exact ⟨one, found, phase, (Option.some.inj stepped).symm⟩
      · cases stepped

theorem step_wake (stepped : step host state (.wake run) = some next) :
    ∃ one, state.runs[run]? = some one ∧ one.phase = .sleeping ∧
      next = { state.put run { one with posts := one.posts + 1, phase := .posting } with
        posts := state.posts ++ [⟨run, one.url, one.token⟩] } := by
  rw [step] at stepped
  split at stepped
  · cases stepped
  · next one found =>
      split at stepped
      · next phase => exact ⟨one, found, phase, (Option.some.inj stepped).symm⟩
      · cases stepped

theorem step_read (stepped : step host state (.read run) = some next) :
    ∃ one res, state.runs[run]? = some one ∧ one.phase = .reading res ∧
      (res.body = none ∧ next = state.put run { one with phase := .settled .failed state.now } ∨
        ∃ body, res.body = some body ∧ next = (recordSettled host state one.token res.status body).put run
          { one with phase := .settled (.snapshot res.status body) state.now }) := by
  rw [step] at stepped
  split at stepped
  · cases stepped
  · next one found =>
      split at stepped
      · next res phase =>
          refine ⟨one, res, found, phase, ?_⟩
          split at stepped
          · next none => exact .inl ⟨none, (Option.some.inj stepped).symm⟩
          · next body same => exact .inr ⟨body, same, (Option.some.inj stepped).symm⟩
      · cases stepped

theorem step_react (stepped : step host state (.react run) = some next) :
    ∃ one result time, state.runs[run]? = some one ∧ one.phase = .settled result time ∧
      next = (onSettled host state run one result).put run { one with phase := .stamped result time } := by
  rw [step] at stepped
  split at stepped
  · cases stepped
  · next one found =>
      split at stepped
      · next result time phase => exact ⟨one, result, time, found, phase, (Option.some.inj stepped).symm⟩
      · cases stepped

theorem step_deliver {request : Nat} (stepped : step host state (.deliver request) = some next) :
    ∃ waiting one result time, state.requests[request]? = some waiting ∧ waiting.answer = none ∧
      state.runs[waiting.run]? = some one ∧ one.phase = .stamped result time ∧
        next = { state with requests := state.requests.set request { waiting with answer := some (answerOf result) } } := by
  rw [step] at stepped
  split at stepped
  · cases stepped
  · next waiting found =>
      split at stepped
      · next result time unanswered phase =>
          obtain ⟨one, listed, phase⟩ := Option.map_eq_some_iff.mp phase
          exact ⟨waiting, one, result, time, found, unanswered, listed, phase, (Option.some.inj stepped).symm⟩
      · cases stepped

variable {one other : Exchange Body} {result : Result Body} {time expiry : Nat}

theorem result?_of_settled (phase : one.phase = .settled result time) : one.result? = some (result, time) := by
  rw [Exchange.result?, phase]

theorem result?_of_stamped (phase : one.phase = .stamped result time) : one.result? = some (result, time) := by
  rw [Exchange.result?, phase]

theorem phase_of_result? (settled : one.result? = some (result, time)) :
    one.phase = .settled result time ∨ one.phase = .stamped result time := by
  rw [Exchange.result?] at settled
  split at settled
  · next phase =>
      cases settled
      exact .inl phase
  · next phase =>
      cases settled
      exact .inr phase
  · cases settled

/-- What exchanges have settled with stays. -/
def Grows (before after : List (Exchange Body)) : Prop :=
  ∀ (run : Nat) (one : Exchange Body), before[run]? = some one → ∃ other, after[run]? = some other ∧
    other.token = one.token ∧ ∀ settled, one.result? = some settled → other.result? = some settled

theorem Grows.refl (runs : List (Exchange Body)) : Grows runs runs := fun _ one found => ⟨one, found, rfl, fun _ => id⟩

theorem Grows.append (runs more : List (Exchange Body)) : Grows runs (runs ++ more) := by
  intro run one found
  refine ⟨one, ?_, rfl, fun _ => id⟩
  obtain ⟨inside, -⟩ := List.getElem?_eq_some_iff.mp found
  rw [List.getElem?_append_left inside, found]

theorem Grows.set {runs : List (Exchange Body)} (found : runs[run]? = some one) (token : other.token = one.token)
    (keeps : ∀ settled, one.result? = some settled → other.result? = some settled) :
    Grows runs (runs.set run other) := by
  obtain ⟨inside, -⟩ := List.getElem?_eq_some_iff.mp found
  intro place old listed
  by_cases same : run = place
  · subst same
    obtain rfl := Option.some.inj (found.symm.trans listed)
    exact ⟨other, List.getElem?_set_self inside, token, keeps⟩
  · exact ⟨old, by rw [List.getElem?_set_ne same, listed], rfl, fun _ => id⟩

theorem replay_pos : 0 < refreshReplayMs := by decide

theorem Settled.of_unsettled (unsettled : one.result? = none) : Settled host state one where
  past _ _ settled := by rw [unsettled] at settled; cases settled
  made _ _ _ settled := by rw [unsettled] at settled; cases settled
  soon _ _ phase := by rw [result?_of_settled phase] at unsettled; cases unsettled
  recorded _ _ _ phase := by rw [result?_of_settled phase] at unsettled; cases unsettled

/-- An exchange that fails has only its time to answer for. -/
theorem Settled.of_failed (phase : one.phase = .settled .failed state.now) :
    Settled host state one := by
  have settled := result?_of_settled phase
  refine ⟨fun result time same => ?_, fun status body time same => ?_, fun result time same => ?_,
    fun status body time same => ?_⟩
  · cases settled.symm.trans same
    exact Nat.le_refl _
  · cases settled.symm.trans same
  · cases phase.symm.trans same
    exact Nat.le_add_right _ _
  · cases phase.symm.trans same

/-- Records are only replaced by later ones. -/
def Records (host : Host Body Digest) (state next : State Body Digest) : Prop :=
  ∀ spent body expiry, expiry ≤ state.now + 2 * refreshReplayMs → OnRecord host state spent body expiry →
    OnRecord host next spent body expiry

theorem Records.of_eq (same : next.issuedBy = state.issuedBy) : Records host state next := by
  rintro spent body expiry - ⟨record, found, late⟩
  exact ⟨record, by rw [same, found], late⟩

theorem Settled.keep (settled : Settled host state one) (now : next.now = state.now)
    (records : Records host state next) : Settled host next one where
  past _ _ same := now ▸ settled.past _ _ same
  made := settled.made
  soon _ _ phase := now ▸ settled.soon _ _ phase
  recorded _ _ _ phase good := by
    have past := settled.past _ _ (result?_of_settled phase)
    exact records _ _ _ (by omega) (settled.recorded _ _ _ phase good)

theorem Expires.keep (expires : Expires host state one expiry) (now : next.now = state.now)
    (records : Records host state next) : Expires host next one expiry := by
  obtain ⟨⟨status, body, time, phase, good, onRecord⟩, soon⟩ := expires
  exact ⟨⟨status, body, time, phase, good, records _ _ _ (by omega) onRecord⟩, now ▸ soon⟩

/-- An exchange goes on until it has settled. -/
theorem Shared.advance (shared : Shared host state) (found : state.runs[run]? = some one)
    (plain : one.isStamped = false) (plain' : other.isStamped = false) (url : other.url = one.url)
    (token : other.token = one.token) (now : next.now = state.now) (maps : next.exchanges = state.exchanges)
    (records : Records host state next) (runs : next.runs = state.runs.set run other)
    (settled : Settled host next other) : Shared host next := by
  obtain ⟨inside, -⟩ := List.getElem?_eq_some_iff.mp found
  have key : keyOf host other = keyOf host one := by rw [keyOf, keyOf, url, token]
  have stays {place : Nat} {old : Exchange Body} (listed : next.runs[place]? = some old) :
      (place = run ∧ old = other) ∨ (place ≠ run ∧ state.runs[place]? = some old) := by
    rw [runs] at listed
    by_cases same : run = place
    · subst same
      rw [List.getElem?_set_self inside] at listed
      exact .inl ⟨rfl, (Option.some.inj listed).symm⟩
    · rw [List.getElem?_set_ne same] at listed
      exact .inr ⟨Ne.symm same, listed⟩
  refine ⟨?_, ?_, ?_, ?_⟩
  · intro place old listed unstamped
    rw [maps]
    rcases stays listed with ⟨rfl, rfl⟩ | ⟨-, before⟩
    · exact key ▸ shared.pending place one found plain
    · exact shared.pending place old before unstamped
  · intro place old result time listed phase good window
    rw [maps]
    rcases stays listed with ⟨rfl, rfl⟩ | ⟨-, before⟩
    · rw [Exchange.isStamped, phase] at plain'
      cases plain'
    · exact shared.kept place old result time before phase good (now ▸ window)
  · intro place entry listed
    rw [maps] at listed
    obtain ⟨old, before, same, unexpired, expires⟩ := shared.known place entry listed
    by_cases own : run = entry.run
    · rw [← own] at before
      obtain rfl := Option.some.inj (found.symm.trans before)
      refine ⟨other, by rw [runs, ← own, List.getElem?_set_self inside], key.trans same, fun _ => plain', ?_⟩
      intro expiry at_
      obtain ⟨status, body, time, phase, -⟩ := (expires expiry at_).success
      rw [Exchange.isStamped, phase] at plain
      cases plain
    · refine ⟨old, by rw [runs, List.getElem?_set_ne own, before], same, unexpired, fun expiry at_ => ?_⟩
      exact (expires expiry at_).keep now records
  · intro old member
    obtain ⟨place, listed⟩ := List.getElem?_of_mem member
    rcases stays listed with ⟨-, rfl⟩ | ⟨-, before⟩
    · exact settled
    · exact (shared.settled old (List.mem_of_getElem? before)).keep now records

theorem Shared.tick (shared : Shared host state) (prompt : state.runs.all (Exchange.prompt state.now) = true) :
    Shared host { state with now := state.now + 1 } := by
  refine ⟨shared.pending, ?_, ?_, ?_⟩
  · intro run one result time found phase good window
    exact shared.kept run one result time found phase good (by dsimp only at window; omega)
  · intro key entry listed
    obtain ⟨one, found, same, unexpired, expires⟩ := shared.known key entry listed
    refine ⟨one, found, same, unexpired, fun expiry at_ => ?_⟩
    obtain ⟨success, soon⟩ := expires expiry at_
    exact ⟨success, by dsimp only; omega⟩
  · intro one member
    obtain ⟨past, made, -, recorded⟩ := shared.settled one member
    refine ⟨fun result time same => Nat.le_succ_of_le (past result time same), made, ?_, recorded⟩
    intro result time phase
    have waits := List.all_eq_true.mp prompt one member
    rw [Exchange.prompt, phase] at waits
    have early := of_decide_eq_true waits
    exact early

theorem get?_sweepExchanges (key : Digest) : state.sweepExchanges.exchanges.get? key =
    (state.exchanges.get? key).filter fun entry => !entry.expiresAt.any (· ≤ state.now) := by
  rw [State.sweepExchanges, OrderedMap.get?_filterMap]
  cases state.exchanges.get? key with
  | none => rfl
  | some entry => cases swept : entry.expiresAt.any (· ≤ state.now) <;> simp [swept, Option.filter_some]

theorem OnRecord.sweep {spent : String} {body : Body} (onRecord : OnRecord host state spent body expiry)
    (later : state.now < expiry) : OnRecord host state.sweepExchanges.sweepSettled spent body expiry := by
  obtain ⟨record, found, late⟩ := onRecord
  refine ⟨record, ?_, late⟩
  rw [State.sweepSettled, OrderedMap.get?_filterMap]
  change ((state.issuedBy.get? _).bind _) = _
  rw [found, Option.bind_some]
  exact if_neg (by change ¬record.expiresAt ≤ state.now; omega)

/-- Sweeping takes out no more than what has expired. -/
theorem Shared.sweep (shared : Shared host state) : Shared host state.sweepExchanges.sweepSettled := by
  have map (key : Digest) : state.sweepExchanges.sweepSettled.exchanges.get? key =
      (state.exchanges.get? key).filter fun entry => !entry.expiresAt.any (· ≤ state.now) := get?_sweepExchanges key
  refine ⟨?_, ?_, ?_, ?_⟩
  · intro run one found plain
    rw [map, shared.pending run one found plain]
    rfl
  · intro run one result time found phase good window
    obtain ⟨expiry, listed, late⟩ := shared.kept run one result time found phase good window
    refine ⟨expiry, ?_, late⟩
    have later : ¬expiry ≤ state.now := by
      change state.now < _ at window
      omega
    rw [map, listed]
    simp [Option.filter_some, later]
  · intro key entry listed
    rw [map, Option.filter_eq_some_iff] at listed
    obtain ⟨listed, fresh⟩ := listed
    obtain ⟨one, found, same, unexpired, expires⟩ := shared.known key entry listed
    refine ⟨one, found, same, unexpired, fun expiry at_ => ?_⟩
    obtain ⟨⟨status, body, time, phase, good, onRecord⟩, soon⟩ := expires expiry at_
    have later : state.now < expiry := by simpa [at_] using fresh
    exact ⟨⟨status, body, time, phase, good, onRecord.sweep later⟩, soon⟩
  · intro one member
    obtain ⟨past, made, soon, recorded⟩ := shared.settled one member
    refine ⟨past, made, soon, fun status body time phase good => ?_⟩
    have waits := soon _ _ phase
    have positive := replay_pos
    exact (recorded status body time phase good).sweep (by omega)

/-- An exchange that is begun is the one of its key. -/
theorem Shared.start (shared : Shared host state) {token : String}
    (free : state.exchanges.get? (exchangeKey host url token) = none) :
    Shared host (state.start host maxAttempts url token) := by
  generalize made : (if 0 < maxAttempts then ⟨url, token, maxAttempts, 1, [], .posting⟩
    else ⟨url, token, maxAttempts, 0, [], .settled .failed state.now⟩ : Exchange Body) = exchange
  have runs : (state.start host maxAttempts url token).runs = state.runs ++ [exchange] := by rw [← made]; rfl
  have plain : exchange.isStamped = false := by rw [← made]; split <;> rfl
  have key : keyOf host exchange = exchangeKey host url token := by rw [← made]; split <;> rfl
  have settled : Settled host (state.start host maxAttempts url token) exchange := by
    rw [← made]
    split
    · exact .of_unsettled rfl
    · exact .of_failed rfl
  have map (other : Digest) : (state.start host maxAttempts url token).exchanges.get? other =
      if other = exchangeKey host url token then some ⟨state.runs.length, none⟩ else state.exchanges.get? other :=
    OrderedMap.get?_set _ _ _
  have other {place : Digest} {entry : Entry} (listed : state.exchanges.get? place = some entry) :
      (state.start host maxAttempts url token).exchanges.get? place = some entry := by
    rw [map, if_neg]
    · exact listed
    · rintro rfl
      rw [free] at listed
      cases listed
  have records : Records host state (state.start host maxAttempts url token) := .of_eq rfl
  have stays {place : Nat} {old : Exchange Body}
      (listed : (state.start host maxAttempts url token).runs[place]? = some old) :
      (place = state.runs.length ∧ old = exchange) ∨ state.runs[place]? = some old := by
    rw [runs, List.getElem?_append] at listed
    split at listed
    · exact .inr listed
    · next beyond =>
        obtain ⟨inside, same⟩ := List.getElem?_eq_some_iff.mp listed
        rw [List.length_singleton] at inside
        refine .inl ⟨by omega, ?_⟩
        rw [← same]
        exact List.getElem_singleton inside
  refine ⟨?_, ?_, ?_, ?_⟩
  · intro place old listed unstamped
    rcases stays listed with ⟨rfl, rfl⟩ | before
    · rw [map, if_pos key]
    · exact other (shared.pending place old before unstamped)
  · intro place old result time listed phase good window
    rcases stays listed with ⟨rfl, rfl⟩ | before
    · rw [Exchange.isStamped, phase] at plain
      cases plain
    · obtain ⟨expiry, kept, late⟩ := shared.kept place old result time before phase good window
      exact ⟨expiry, other kept, late⟩
  · intro place entry listed
    rw [map] at listed
    split at listed
    · next same =>
        obtain rfl := Option.some.inj listed
        refine ⟨exchange, by rw [runs]; simp, key.trans same.symm, fun _ => plain, nofun⟩
    · obtain ⟨old, before, same, unexpired, expires⟩ := shared.known place entry listed
      refine ⟨old, ?_, same, unexpired, fun expiry at_ => (expires expiry at_).keep rfl records⟩
      obtain ⟨inside, -⟩ := List.getElem?_eq_some_iff.mp before
      rw [runs, List.getElem?_append_left inside, before]
  · intro old member
    rw [runs] at member
    rcases List.mem_append.mp member with before | new
    · exact (shared.settled old before).keep rfl records
    · exact List.mem_singleton.mp new ▸ settled

/-- The callback leaves the entry of a success, and takes out that of a failure. -/
theorem get?_onSettled (own : state.exchanges.get? (keyOf host one) = some ⟨run, none⟩)
    (made : ∀ status body, result = .snapshot status body → isConstructible status = true) (key : Digest) :
    (onSettled host state run one result).exchanges.get? key =
      if key = keyOf host one then
        if result.succeeds then some ⟨run, some (state.now + refreshReplayMs)⟩ else none
      else state.exchanges.get? key := by
  have holds : state.holds host run one = true := by
    rw [State.holds]
    change ((state.exchanges.get? (keyOf host one)).any _) = true
    rw [own]
    exact decide_eq_true rfl
  cases result with
  | failed =>
      rw [onSettled, State.drop, if_pos holds]
      exact OrderedMap.get?_delete _ _
  | snapshot status body =>
      rw [onSettled, made status body rfl]
      cases good : isOk status with
      | true =>
          rw [State.expire, if_pos holds]
          refine (OrderedMap.get?_set _ _ _).trans ?_
          rw [Result.succeeds, good]
          rfl
      | false =>
          rw [State.drop, if_pos holds]
          refine (OrderedMap.get?_delete _ _).trans ?_
          rw [Result.succeeds, good]
          rfl

theorem onSettled_frame (state : State Body Digest) (run : Nat) (one : Exchange Body) (result : Result Body) :
    (onSettled host state run one result).now = state.now ∧ (onSettled host state run one result).runs = state.runs ∧
      (onSettled host state run one result).issuedBy = state.issuedBy ∧
      (onSettled host state run one result).refused = state.refused ∧
      (onSettled host state run one result).requests = state.requests ∧
      (onSettled host state run one result).posts = state.posts := by
  cases result with
  | failed =>
      rw [onSettled, State.drop]
      split <;> exact ⟨rfl, rfl, rfl, rfl, rfl, rfl⟩
  | snapshot status body =>
      rw [onSettled, State.drop, State.expire]
      split_ifs <;> exact ⟨rfl, rfl, rfl, rfl, rfl, rfl⟩

/-- The callback of an exchange stamps what it settled with. -/
theorem Shared.react (shared : Shared host state) (found : state.runs[run]? = some one)
    (phase : one.phase = .settled result time) :
    Shared host ((onSettled host state run one result).put run { one with phase := .stamped result time }) := by
  obtain ⟨inside, -⟩ := List.getElem?_eq_some_iff.mp found
  have plain : one.isStamped = false := by rw [Exchange.isStamped, phase]
  have own := shared.pending run one found plain
  have settled := shared.settled one (List.mem_of_getElem? found)
  have made : ∀ status body, result = .snapshot status body → isConstructible status = true := by
    rintro status body rfl
    exact settled.made status body time (result?_of_settled phase)
  obtain ⟨now, runs, issued, -⟩ := @onSettled_frame _ _ _ host state run one result
  have map (key : Digest) := get?_onSettled own made key
  generalize onSettled host state run one result = reacted at now runs issued map
  have records : Records host state (reacted.put run { one with phase := .stamped result time }) := .of_eq issued
  have stays {place : Nat} {old : Exchange Body}
      (listed : (reacted.put run { one with phase := .stamped result time }).runs[place]? = some old) :
      (place = run ∧ old = { one with phase := .stamped result time }) ∨
        (place ≠ run ∧ state.runs[place]? = some old) := by
    change (reacted.runs.set run _)[place]? = some old at listed
    rw [runs] at listed
    by_cases same : run = place
    · subst same
      rw [List.getElem?_set_self inside] at listed
      exact .inl ⟨rfl, (Option.some.inj listed).symm⟩
    · rw [List.getElem?_set_ne same] at listed
      exact .inr ⟨Ne.symm same, listed⟩
  refine ⟨?_, ?_, ?_, ?_⟩
  · intro place old listed unstamped
    rcases stays listed with ⟨-, rfl⟩ | ⟨other, before⟩
    · cases unstamped
    · have entry := shared.pending place old before unstamped
      change reacted.exchanges.get? _ = _
      rw [map, if_neg, entry]
      intro same
      rw [same, own] at entry
      cases entry
      exact other rfl
  · intro place old result' time' listed phase' good window
    change ∃ expiry, reacted.exchanges.get? _ = _ ∧ _
    rcases stays listed with ⟨rfl, rfl⟩ | ⟨other, before⟩
    · cases phase'
      refine ⟨state.now + refreshReplayMs, ?_, ?_⟩
      · exact (map (keyOf host one)).trans (by rw [if_pos rfl, if_pos good])
      · exact Nat.add_le_add_right (settled.past result time (result?_of_settled phase)) _
    · obtain ⟨expiry, entry, late⟩ := shared.kept place old result' time' before phase' good
        (by change reacted.now < _ at window; rwa [now] at window)
      refine ⟨expiry, ?_, late⟩
      rw [map, if_neg, entry]
      intro same
      rw [same, own] at entry
      cases entry
  · intro key entry listed
    change reacted.exchanges.get? key = some entry at listed
    rw [map] at listed
    split at listed
    · next same =>
        split at listed
        · next good =>
            obtain rfl := Option.some.inj listed
            refine ⟨{ one with phase := .stamped result time }, ?_, same.symm, nofun, ?_⟩
            · change (reacted.runs.set run _)[run]? = _
              rw [runs, List.getElem?_set_self inside]
            · rintro expiry ⟨⟩
              cases result with
              | failed => cases good
              | snapshot status body =>
                  have recorded := settled.recorded status body time phase good
                  have soon := settled.soon _ _ phase
                  refine ⟨⟨status, body, time, rfl, good, records _ _ _ (by omega) ?_⟩, ?_⟩
                  · obtain ⟨record, listed, late⟩ := recorded
                    exact ⟨record, listed, by omega⟩
                  · change _ ≤ reacted.now + _
                    exact Nat.le_of_eq (by rw [now])
        · cases listed
    · next different =>
        obtain ⟨old, before, same, unexpired, expires⟩ := shared.known key entry listed
        have other : run ≠ entry.run := by
          rintro rfl
          obtain rfl := Option.some.inj (found.symm.trans before)
          exact different same.symm
        refine ⟨old, ?_, same, unexpired, fun expiry at_ => (expires expiry at_).keep now records⟩
        change (reacted.runs.set run _)[entry.run]? = _
        rw [runs, List.getElem?_set_ne other, before]
  · intro old member
    obtain ⟨place, listed⟩ := List.getElem?_of_mem member
    rcases stays listed with ⟨-, rfl⟩ | ⟨-, before⟩
    · refine ⟨fun result' time' same => ?_, fun status body time' same => ?_, nofun, nofun⟩
      · cases same
        exact now.symm ▸ settled.past result time (result?_of_settled phase)
      · cases same
        exact made status body rfl
    · exact (shared.settled old (List.mem_of_getElem? before)).keep now records

end NimbleBrain.Credentials.RefreshFetch
