import NimbleBrain.Library.OrderedMap
import NimbleBrain.Library.Transition

/- A registry holds one source under each name. A removal waits for the source to stop. -/

namespace NimbleBrain.McpSource.Registry

open Library

inductive Listener
  | toolsChanged
  | serverNotifications
  deriving DecidableEq

/-- The object tells one source from another. A method that a source lacks is not called. -/
structure ToolSource where
  object : Nat
  name : String
  hasIsAlive : Bool := true
  hasSubscribeToolsChanged : Bool := true
  hasSubscribeServerNotifications : Bool := true
  deriving DecidableEq

/-- The entry of a name is its source. The rest tells how and when it was added. -/
structure Entry where
  source : ToolSource
  shared : Bool
  addedAt : Nat
  deriving DecidableEq

/-- A shared source does not relay the notifications of its server. -/
def Entry.listensTo (entry : Entry) : Listener → Bool
  | .toolsChanged => entry.source.hasSubscribeToolsChanged
  | .serverNotifications => entry.source.hasSubscribeServerNotifications && !entry.shared

structure Subscription where
  source : ToolSource
  listener : Listener
  deriving DecidableEq

/-- An adoption removes the dead entry first and adds its own source after. -/
inductive Call
  | removing (name : String) (source : ToolSource) (calledAt : Nat) (adopts : Option ToolSource)
  | adopting (source : ToolSource)
  deriving DecidableEq

/-- What a removal unregistered, and whether it was live then. -/
structure Removal where
  calledAt : Nat
  evicts : Bool
  entry : Option Entry
  live : Bool
  deriving DecidableEq

/-- What an adoption answers, with the entry of its name at that moment. -/
structure Adoption where
  source : ToolSource
  answer : Bool
  entry : Option Entry
  deriving DecidableEq

/-- The two maps of unsubscribe handles are one, by the listener. A handle is the number of its subscription. -/
structure State where
  sources : OrderedMap String Entry := ∅
  unsubs : OrderedMap (Listener × String) Nat := ∅
  subscriptions : OrderedMap Nat Subscription := ∅
  subscribed : Nat := 0
  alive : ToolSource → Bool
  calls : OrderedMap Nat Call := ∅
  called : Nat := 0
  adds : Nat := 0
  added : List ToolSource := []
  stopped : List ToolSource := []
  removals : List Removal := []
  adoptions : List Adoption := []
  invalidations : Nat := 0

def State.live (state : State) (source : ToolSource) : Bool := if source.hasIsAlive then state.alive source else true

def hasLiveSource (name : String) (state : State) : Bool :=
  (state.sources.get? name).any fun entry => state.live entry.source

def fireInvalidation (state : State) : State := { state with invalidations := state.invalidations + 1 }

/-- Subscribe and keep the handle. -/
def subscribe (entry : Entry) (listener : Listener) (state : State) : State :=
  if entry.listensTo listener then
    { state with
      subscriptions := state.subscriptions.set state.subscribed ⟨entry.source, listener⟩
      unsubs := state.unsubs.set (listener, entry.source.name) state.subscribed
      subscribed := state.subscribed + 1 }
  else state

/-- A taken name throws. -/
def addSource (source : ToolSource) (shared : Bool) (state : State) : Except String State :=
  if (state.sources.get? source.name).isSome then
    .error ("Source \"" ++ source.name ++ "\" is already registered")
  else
    let entry : Entry := ⟨source, shared, state.adds⟩
    let registered := { state with
      sources := state.sources.set source.name entry, adds := state.adds + 1, added := source :: state.added }
    .ok (fireInvalidation (subscribe entry .serverNotifications (subscribe entry .toolsChanged registered)))

def unsubscribe (name : String) (listener : Listener) (state : State) : State :=
  { state with
    subscriptions := match state.unsubs.get? (listener, name) with
      | some handle => state.subscriptions.delete handle
      | none => state.subscriptions
    unsubs := state.unsubs.delete (listener, name) }

/-- The entry stays until its source has stopped. -/
def removeSource (name : String) (adopts : Option ToolSource) (state : State) : State :=
  match state.sources.get? name with
  | none => state
  | some entry =>
      let detached := unsubscribe name .serverNotifications (unsubscribe name .toolsChanged state)
      { detached with
        stopped := entry.source :: state.stopped
        calls := state.calls.set state.called (.removing name entry.source state.adds adopts)
        called := state.called + 1 }

/-- The source has stopped. The entry of the name is deleted, whichever source it holds by now. -/
def removalGoesOn (number : Nat) (state : State) : Option State :=
  match state.calls.get? number with
  | some (.removing name _ calledAt adopts) =>
      let removal : Removal := ⟨calledAt, adopts.isSome, state.sources.get? name, hasLiveSource name state⟩
      some (fireInvalidation { state with
        sources := state.sources.delete name
        removals := removal :: state.removals
        calls := match adopts with
          | none => state.calls.delete number
          | some source => state.calls.set number (.adopting source) })
  | _ => none

def answers (source : ToolSource) (answer : Bool) (state : State) : State :=
  { state with adoptions := ⟨source, answer, state.sources.get? source.name⟩ :: state.adoptions }

/-- An adoption that cannot add throws. -/
def adoptionAdds (source : ToolSource) (state : State) : State :=
  match addSource source false state with
  | .ok added => answers source true added
  | .error _ => state

/-- A live entry stays. A dead one is removed before the source is added. -/
def adoptSource (source : ToolSource) (state : State) : State :=
  if hasLiveSource source.name state then
    answers source ((state.sources.get? source.name).any fun entry => entry.source = source) state
  else if (state.sources.get? source.name).isSome then removeSource source.name (some source) state
  else adoptionAdds source state

def adoptionGoesOn (number : Nat) (state : State) : Option State :=
  match state.calls.get? number with
  | some (.adopting source) => some (adoptionAdds source { state with calls := state.calls.delete number })
  | _ => none

/-- A source may come up or go down at any moment. -/
inductive Action
  | changes (source : ToolSource) (alive : Bool)
  | addSource (source : ToolSource) (shared : Bool)
  | removeSource (name : String)
  | removalGoesOn (number : Nat)
  | adoptSource (source : ToolSource)
  | adoptionGoesOn (number : Nat)
  deriving DecidableEq

def step (state : State) : Action → Option State
  | .changes source alive => some { state with alive := Function.update state.alive source alive }
  | .addSource source shared =>
      match addSource source shared state with
      | .ok added => some added
      | .error _ => some state
  | .removeSource name => some (removeSource name none state)
  | .removalGoesOn number => removalGoesOn number state
  | .adoptSource source => some (adoptSource source state)
  | .adoptionGoesOn number => adoptionGoesOn number state

def ToolRegistry : System State Action where
  initial state := ∃ alive, state = { alive }
  step := step

end NimbleBrain.McpSource.Registry

/- No source leaks from a registry while no name is taken again under a removal that still waits. -/

namespace NimbleBrain.McpSource.Registry

open Library

def Call.removes (name : String) : Call → Bool
  | .removing removed _ _ _ => removed = name
  | .adopting _ => false

/-- A removal of the name has not come to its end. -/
def State.removing (state : State) (name : String) : Bool :=
  state.calls.entries.any fun entry => entry.2.removes name

/-- The source is the one that a removal waits for. -/
def State.beingRemoved (state : State) (source : ToolSource) : Prop :=
  ∃ number name calledAt adopts, state.calls.get? number = some (.removing name source calledAt adopts)

/-- What no interleaving of the calls may break. -/
structure NoLeak (state : State) : Prop where
  registered : ∀ source ∈ state.added,
    (∃ entry, state.sources.get? source.name = some entry ∧ entry.source = source) ∨ source ∈ state.stopped
  subscribedOnly : ∀ number subscription, state.subscriptions.get? number = some subscription →
    ∃ entry, state.sources.get? subscription.source.name = some entry ∧ entry.source = subscription.source ∧
      entry.listensTo subscription.listener = true ∧ ¬ state.beingRemoved subscription.source
  subscribedAll : ∀ name entry listener, state.sources.get? name = some entry → ¬ state.beingRemoved entry.source →
    entry.listensTo listener = true → ∃! number, state.subscriptions.get? number = some ⟨entry.source, listener⟩
  evicted : ∀ removal ∈ state.removals, removal.evicts = true → removal.live = false
  adopted : ∀ adoption ∈ state.adoptions, adoption.answer = true →
    ∃ entry, adoption.entry = some entry ∧ entry.source = adoption.source
  removed : ∀ removal ∈ state.removals, ∀ entry, removal.entry = some entry → entry.addedAt < removal.calledAt

/-- A name that is added is under no removal. -/
def meetsAdd (name : String) (state : State) : Bool := (state.sources.get? name).isSome || !state.removing name

/-- A dead entry that is evicted is still dead when its source has stopped. -/
def meetsEviction (number : Nat) (state : State) : Bool :=
  match state.calls.get? number with
  | some (.removing name _ _ (some _)) => !hasLiveSource name state
  | _ => true

def meetsAdoption (number : Nat) (state : State) : Bool :=
  match state.calls.get? number with
  | some (.adopting source) => meetsAdd source.name state
  | _ => true

def meets (state : State) : Action → Bool
  | .addSource source _ => meetsAdd source.name state
  | .adoptSource source => meetsAdd source.name state
  | .removalGoesOn number => meetsEviction number state
  | .adoptionGoesOn number => meetsAdoption number state
  | _ => true

/-- No name is taken again while a removal of it waits, and no evicted source comes up. -/
def Orderly : System.Guard State Action := fun state action => meets state action = true

instance (state : State) (action : Action) : Decidable (Orderly state action) := inferInstanceAs (Decidable (_ = true))

section Handles

/-- The handles and the subscriptions agree. -/
structure Handles (state : State) : Prop where
  held : ∀ number subscription, state.subscriptions.get? number = some subscription →
    state.unsubs.get? (subscription.listener, subscription.source.name) = some number
  kept : ∀ listener name number, state.unsubs.get? (listener, name) = some number →
    ∃ subscription, state.subscriptions.get? number = some subscription ∧
      subscription.listener = listener ∧ subscription.source.name = name
  fresh : ∀ number subscription, state.subscriptions.get? number = some subscription → number < state.subscribed

/-- The source whose listener the registry holds under a name. -/
def State.heard (state : State) (listener : Listener) (name : String) : Option ToolSource :=
  (state.unsubs.get? (listener, name)).bind fun number =>
    (state.subscriptions.get? number).map Subscription.source

variable {state : State} {entry : Entry} {listener : Listener}

theorem Handles.subscribe (handles : Handles state) (free : state.unsubs.get? (listener, entry.source.name) = none) :
    Handles (subscribe entry listener state) := by
  unfold Registry.subscribe
  split
  · refine ⟨fun number subscription found => ?_, fun other name number held => ?_,
      fun number subscription found => ?_⟩
    · rw [OrderedMap.get?_set] at found
      split at found
      · rename_i same
        cases found
        exact same ▸ OrderedMap.get?_set_self ..
      · have held := handles.held number subscription found
        rw [OrderedMap.get?_set, if_neg, held]
        intro same
        rw [same, free] at held
        cases held
    · rw [OrderedMap.get?_set] at held
      split at held
      · rename_i same
        cases held
        cases same
        exact ⟨_, OrderedMap.get?_set_self .., rfl, rfl⟩
      · obtain ⟨subscription, found, same⟩ := handles.kept other name number held
        have earlier := handles.fresh number subscription found
        exact ⟨subscription, by rw [OrderedMap.get?_set, if_neg (Nat.ne_of_lt earlier), found], same⟩
    · rw [OrderedMap.get?_set] at found
      split at found
      · rename_i same
        exact same ▸ Nat.lt_succ_self _
      · exact Nat.lt_succ_of_lt (handles.fresh number subscription found)
  · exact handles

theorem heard_subscribe (handles : Handles state) (other : Listener) (name : String) :
    (subscribe entry listener state).heard other name =
      if (other, name) = (listener, entry.source.name) ∧ entry.listensTo listener = true then some entry.source
      else state.heard other name := by
  unfold Registry.subscribe
  cases entry.listensTo listener with
  | false => simp
  | true =>
      simp only [if_true, State.heard, OrderedMap.get?_set, and_true]
      split
      · simp
      · cases held : state.unsubs.get? (other, name) with
        | none => rfl
        | some number =>
            obtain ⟨subscription, found, _⟩ := handles.kept other name number held
            simp only [Option.bind_some]
            rw [if_neg (Nat.ne_of_lt (handles.fresh number subscription found))]

/-- An unsubscribe call takes away its own subscription and no other. -/
theorem unsubscribe_subscriptions (handles : Handles state) (name : String) (number : Nat) :
    (unsubscribe name listener state).subscriptions.get? number =
      (state.subscriptions.get? number).filter fun subscription =>
        (subscription.listener, subscription.source.name) ≠ (listener, name) := by
  unfold Registry.unsubscribe
  cases held : state.unsubs.get? (listener, name) with
  | none =>
      cases found : state.subscriptions.get? number with
      | none => simp
      | some subscription =>
          have own := handles.held number subscription found
          have apart : (subscription.listener, subscription.source.name) ≠ (listener, name) := by
            intro same
            rw [same, held] at own
            cases own
          simp only [Option.filter_some, decide_eq_true apart, if_true]
  | some handle =>
      simp only [OrderedMap.get?_delete]
      cases found : state.subscriptions.get? number with
      | none => simp
      | some subscription =>
          have own := handles.held number subscription found
          split
          · rename_i same
            subst same
            obtain ⟨other, known, rfl, rfl⟩ := handles.kept listener name number held
            cases found.symm.trans known
            simp [Option.filter_some]
          · rename_i different
            have apart : (subscription.listener, subscription.source.name) ≠ (listener, name) := by
              intro same
              rw [same, held] at own
              exact different (Option.some.inj own).symm
            simp only [Option.filter_some, decide_eq_true apart, if_true]

theorem Handles.unsubscribe (handles : Handles state) (name : String) :
    Handles (unsubscribe name listener state) := by
  refine ⟨fun number subscription found => ?_, fun other removed number held => ?_,
    fun number subscription found => ?_⟩
  · rw [unsubscribe_subscriptions handles, Option.filter_eq_some_iff] at found
    obtain ⟨found, apart⟩ := found
    simp only [Registry.unsubscribe, OrderedMap.get?_delete]
    rw [if_neg (of_decide_eq_true apart), handles.held number subscription found]
  · simp only [Registry.unsubscribe, OrderedMap.get?_delete] at held
    split at held
    · cases held
    · rename_i apart
      obtain ⟨subscription, found, rfl, rfl⟩ := handles.kept other removed number held
      refine ⟨subscription, ?_, rfl, rfl⟩
      rw [unsubscribe_subscriptions handles, Option.filter_eq_some_iff]
      exact ⟨found, decide_eq_true apart⟩
  · rw [unsubscribe_subscriptions handles, Option.filter_eq_some_iff] at found
    exact handles.fresh number subscription found.1

theorem heard_unsubscribe (handles : Handles state) (removed : String) (other : Listener) (name : String) :
    (unsubscribe removed listener state).heard other name =
      if (other, name) = (listener, removed) then none else state.heard other name := by
  have unsubs : (unsubscribe removed listener state).unsubs.get? (other, name) =
      if (other, name) = (listener, removed) then none else state.unsubs.get? (other, name) :=
    OrderedMap.get?_delete ..
  unfold State.heard
  rw [unsubs]
  split
  · rfl
  · rename_i apart
    cases held : state.unsubs.get? (other, name) with
    | none => rfl
    | some number =>
        obtain ⟨subscription, found, rfl, rfl⟩ := handles.kept other name number held
        simp only [Option.bind_some]
        rw [unsubscribe_subscriptions handles, found, Option.filter_some, if_pos (decide_eq_true apart)]

theorem Handles.free (handles : Handles state) {name : String} (unheard : state.heard listener name = none) :
    state.unsubs.get? (listener, name) = none := by
  cases held : state.unsubs.get? (listener, name) with
  | none => rfl
  | some number =>
      obtain ⟨subscription, found, _⟩ := handles.kept listener name number held
      simp [State.heard, held, found] at unheard

theorem Handles.frame (handles : Handles state) {after : State}
    (subscriptions : after.subscriptions = state.subscriptions) (unsubs : after.unsubs = state.unsubs)
    (subscribed : after.subscribed = state.subscribed) : Handles after := by
  refine ⟨?_, ?_, ?_⟩
  · rw [subscriptions, unsubs]
    exact handles.held
  · rw [subscriptions, unsubs]
    exact handles.kept
  · rw [subscriptions, subscribed]
    exact handles.fresh

end Handles

section Invariant

variable {state after : State}

variable {name : String}

theorem State.removing_iff : state.removing name = true ↔
    ∃ number source calledAt adopts, state.calls.get? number = some (.removing name source calledAt adopts) := by
  constructor
  · rw [removing, List.any_eq_true]
    rintro ⟨⟨number, call⟩, member, removes⟩
    cases call with
    | removing removed source calledAt adopts =>
        cases of_decide_eq_true removes
        exact ⟨number, source, calledAt, adopts, OrderedMap.get?_eq_some_iff.mpr member⟩
    | adopting source => cases removes
  · rintro ⟨number, source, calledAt, adopts, found⟩
    rw [removing, List.any_eq_true]
    exact ⟨_, OrderedMap.get?_eq_some_iff.mp found, decide_eq_true rfl⟩

/-- The source whose listener the registry should hold under a name. -/
def State.expected (state : State) (listener : Listener) (name : String) : Option ToolSource :=
  (state.sources.get? name).bind fun entry =>
    if state.removing name || !entry.listensTo listener then none else some entry.source

/-- A removal that waits has asked its source to stop, and finds no later source under its name. -/
def Waits (state : State) (name : String) (source : ToolSource) (calledAt : Nat) : Prop :=
  source.name = name ∧ source ∈ state.stopped ∧
    ∀ entry, state.sources.get? name = some entry → entry.source = source ∧ entry.addedAt < calledAt

structure Sound (state : State) : Prop where
  handles : Handles state
  heard : ∀ listener name, state.heard listener name = state.expected listener name
  named : ∀ name entry, state.sources.get? name = some entry → entry.source.name = name
  dated : ∀ name entry, state.sources.get? name = some entry → entry.addedAt < state.adds
  waits : ∀ number name source calledAt adopts,
    state.calls.get? number = some (.removing name source calledAt adopts) → Waits state name source calledAt
  fresh : ∀ number call, state.calls.get? number = some call → number < state.called
  registered : ∀ source ∈ state.added,
    (∃ entry, state.sources.get? source.name = some entry ∧ entry.source = source) ∨ source ∈ state.stopped
  evicted : ∀ removal ∈ state.removals, removal.evicts = true → removal.live = false
  adopted : ∀ adoption ∈ state.adoptions, adoption.answer = true →
    ∃ entry, adoption.entry = some entry ∧ entry.source = adoption.source
  removed : ∀ removal ∈ state.removals, ∀ entry, removal.entry = some entry → entry.addedAt < removal.calledAt

/-- A source waits for its removal exactly when its name does. -/
theorem Sound.beingRemoved_iff (sound : Sound state) {entry : Entry} (found : state.sources.get? name = some entry) :
    state.beingRemoved entry.source ↔ state.removing name = true := by
  rw [State.removing_iff]
  constructor
  · rintro ⟨number, removed, calledAt, adopts, waits⟩
    have same := (sound.waits number removed entry.source calledAt adopts waits).1
    rw [← same, sound.named name entry found] at waits
    exact ⟨number, entry.source, calledAt, adopts, waits⟩
  · rintro ⟨number, source, calledAt, adopts, waits⟩
    have same := ((sound.waits number name source calledAt adopts waits).2.2 entry found).1
    exact ⟨number, name, calledAt, adopts, same ▸ waits⟩

theorem State.expected_eq_some {listener : Listener} {source : ToolSource} :
    state.expected listener name = some source ↔ ∃ entry, state.sources.get? name = some entry ∧
      state.removing name = false ∧ entry.listensTo listener = true ∧ entry.source = source := by
  rw [expected, Option.bind_eq_some_iff]
  constructor
  · rintro ⟨entry, found, heard⟩
    split at heard
    · cases heard
    · rename_i quiet
      have ⟨waits, listens⟩ : state.removing name = false ∧ entry.listensTo listener = true := by simpa using quiet
      exact ⟨entry, found, waits, listens, Option.some.inj heard⟩
  · rintro ⟨entry, found, waits, listens, rfl⟩
    exact ⟨entry, found, by simp [waits, listens]⟩

theorem Sound.noLeak (sound : Sound state) : NoLeak state where
  registered := sound.registered
  subscribedOnly number subscription found := by
    have held := sound.handles.held number subscription found
    have heard : state.heard subscription.listener subscription.source.name = some subscription.source := by
      simp [State.heard, held, found]
    rw [sound.heard, State.expected_eq_some] at heard
    obtain ⟨entry, known, quiet, listens, same⟩ := heard
    refine ⟨entry, known, same, listens, fun removed => ?_⟩
    rw [← same, sound.beingRemoved_iff known, quiet] at removed
    cases removed
  subscribedAll name entry listener known apart listens := by
    have quiet : state.removing name = false := by
      rw [← Bool.not_eq_true, ← sound.beingRemoved_iff known]
      exact apart
    have heard := State.expected_eq_some.mpr ⟨entry, known, quiet, listens, rfl⟩
    rw [← sound.heard, State.heard, Option.bind_eq_some_iff] at heard
    obtain ⟨number, held, heard⟩ := heard
    obtain ⟨subscription, found, source⟩ := Option.map_eq_some_iff.mp heard
    obtain ⟨other, found', rfl, _⟩ := sound.handles.kept listener name number held
    cases found.symm.trans found'
    refine ⟨number, source ▸ found, fun second found' => ?_⟩
    have again := sound.handles.held second _ found'
    simp only [sound.named name entry known, held] at again
    exact (Option.some.inj again).symm
  evicted := sound.evicted
  adopted := sound.adopted
  removed := sound.removed

end Invariant

section Frames

variable {state : State}

/-- What a subscription and its end leave alone. -/
structure Keeps (before after : State) : Prop where
  sources : after.sources = before.sources
  calls : after.calls = before.calls
  called : after.called = before.called
  adds : after.adds = before.adds
  added : after.added = before.added
  stopped : after.stopped = before.stopped
  removals : after.removals = before.removals
  adoptions : after.adoptions = before.adoptions

theorem Keeps.trans {first second third : State} (one : Keeps first second) (other : Keeps second third) :
    Keeps first third :=
  ⟨other.sources.trans one.sources, other.calls.trans one.calls, other.called.trans one.called,
    other.adds.trans one.adds, other.added.trans one.added, other.stopped.trans one.stopped,
    other.removals.trans one.removals, other.adoptions.trans one.adoptions⟩

theorem subscribe_keeps (entry : Entry) (listener : Listener) (state : State) :
    Keeps state (subscribe entry listener state) := by
  unfold Registry.subscribe
  split <;> exact ⟨rfl, rfl, rfl, rfl, rfl, rfl, rfl, rfl⟩

theorem unsubscribe_keeps (name : String) (listener : Listener) (state : State) :
    Keeps state (unsubscribe name listener state) :=
  ⟨rfl, rfl, rfl, rfl, rfl, rfl, rfl, rfl⟩

/-- Both listeners of a new entry. -/
def subscribeBoth (entry : Entry) (state : State) : State :=
  subscribe entry .serverNotifications (subscribe entry .toolsChanged state)

theorem subscribeBoth_spec {entry : Entry} (handles : Handles state)
    (unheard : ∀ listener, state.heard listener entry.source.name = none) :
    Keeps state (subscribeBoth entry state) ∧ Handles (subscribeBoth entry state) ∧
      ∀ listener name, (subscribeBoth entry state).heard listener name =
        if name = entry.source.name ∧ entry.listensTo listener = true then some entry.source
        else state.heard listener name := by
  have first : Handles (subscribe entry .toolsChanged state) := handles.subscribe (handles.free (unheard .toolsChanged))
  have quiet : (subscribe entry .toolsChanged state).heard .serverNotifications entry.source.name = none := by
    rw [heard_subscribe handles, if_neg (by simp), unheard]
  refine ⟨(subscribe_keeps ..).trans (subscribe_keeps ..), first.subscribe (first.free quiet), fun listener name => ?_⟩
  rw [subscribeBoth, heard_subscribe first, heard_subscribe handles]
  cases listener <;> by_cases same : name = entry.source.name <;> simp [same]

def unsubscribeBoth (name : String) (state : State) : State :=
  unsubscribe name .serverNotifications (unsubscribe name .toolsChanged state)

theorem unsubscribeBoth_spec (handles : Handles state) (removed : String) :
    Keeps state (unsubscribeBoth removed state) ∧ Handles (unsubscribeBoth removed state) ∧
      ∀ listener name, (unsubscribeBoth removed state).heard listener name =
        if name = removed then none else state.heard listener name := by
  have first : Handles (unsubscribe removed .toolsChanged state) := handles.unsubscribe removed
  refine ⟨(unsubscribe_keeps ..).trans (unsubscribe_keeps ..), first.unsubscribe removed, fun listener name => ?_⟩
  rw [unsubscribeBoth, heard_unsubscribe first, heard_unsubscribe handles]
  cases listener <;> by_cases same : name = removed <;> simp [same]

end Frames

section Steps

variable {state after : State} {source : ToolSource} {shared : Bool}

variable {name : String} {entry : Entry} {number : Nat}

theorem Sound.unheard (sound : Sound state) (absent : state.sources.get? name = none) (listener : Listener) :
    state.heard listener name = none := by
  rw [sound.heard, State.expected, absent]
  rfl

/-- What an entry that is added changes. -/
structure Added (entry : Entry) (state after : State) : Prop where
  absent : state.sources.get? entry.source.name = none
  sources : after.sources = state.sources.set entry.source.name entry
  calls : after.calls = state.calls
  called : after.called = state.called
  adds : after.adds = state.adds + 1
  added : after.added = entry.source :: state.added
  stopped : after.stopped = state.stopped
  removals : after.removals = state.removals
  adoptions : after.adoptions = state.adoptions
  handles : Handles after
  heard : ∀ listener name, after.heard listener name =
    if name = entry.source.name ∧ entry.listensTo listener = true then some entry.source
    else state.heard listener name

theorem addSource_added (sound : Sound state) (added : addSource source shared state = .ok after) :
    Added ⟨source, shared, state.adds⟩ state after := by
  unfold addSource at added
  split at added
  · cases added
  rename_i free
  have absent : state.sources.get? source.name = none := by simpa using free
  cases added
  generalize given : (⟨source, shared, state.adds⟩ : Entry) = entry
  have own : entry.source = source := given ▸ rfl
  subst own
  have framed : Handles { state with
    sources := state.sources.set entry.source.name entry, adds := state.adds + 1, added := entry.source :: state.added } :=
    sound.handles.frame rfl rfl rfl
  obtain ⟨keeps, handles, heard⟩ := subscribeBoth_spec framed fun listener => sound.unheard absent listener
  exact ⟨absent, keeps.sources, keeps.calls, keeps.called, keeps.adds, keeps.added, keeps.stopped, keeps.removals,
    keeps.adoptions, handles.frame rfl rfl rfl, heard⟩

theorem Added.removing (added : Added entry state after) (name : String) :
    after.removing name = state.removing name := by
  rw [State.removing, added.calls, State.removing]

theorem Added.found {entry : Entry} (added : Added entry state after) {name : String} {found : Entry}
    (held : after.sources.get? name = some found) :
    (name = entry.source.name ∧ found = entry) ∨
      (name ≠ entry.source.name ∧ state.sources.get? name = some found) := by
  rw [added.sources, OrderedMap.get?_set] at held
  split at held
  · rename_i same
    exact .inl ⟨same, (Option.some.inj held).symm⟩
  · rename_i apart
    exact .inr ⟨apart, held⟩

theorem Added.expected (added : Added entry state after) (quiet : state.removing entry.source.name = false)
    (listener : Listener) (name : String) :
    after.expected listener name =
      if name = entry.source.name ∧ entry.listensTo listener = true then some entry.source
      else state.expected listener name := by
  rw [State.expected, added.sources, OrderedMap.get?_set, added.removing]
  by_cases same : name = entry.source.name
  · subst same
    cases listens : entry.listensTo listener <;> simp [listens, quiet, State.expected, added.absent]
  · simp [same, State.expected]

/-- A source is added under a name that no removal waits for. -/
theorem Added.sound (added : Added entry state after) (sound : Sound state)
    (quiet : state.removing entry.source.name = false) (date : entry.addedAt = state.adds) : Sound after where
  handles := added.handles
  heard listener name := by rw [added.heard, added.expected quiet, sound.heard]
  named name found held := by
    rcases added.found held with ⟨rfl, rfl⟩ | ⟨_, old⟩
    · rfl
    · exact sound.named name found old
  dated name found held := by
    rw [added.adds]
    rcases added.found held with ⟨_, rfl⟩ | ⟨_, old⟩
    · exact date ▸ Nat.lt_succ_self _
    · exact Nat.lt_succ_of_lt (sound.dated name found old)
  waits number name waiting calledAt adopts held := by
    rw [added.calls] at held
    have waits := sound.waits number name waiting calledAt adopts held
    refine ⟨waits.1, added.stopped ▸ waits.2.1, fun found registered => ?_⟩
    rcases added.found registered with ⟨rfl, _⟩ | ⟨_, old⟩
    · have busy := State.removing_iff.mpr ⟨number, waiting, calledAt, adopts, held⟩
      rw [quiet] at busy
      cases busy
    · exact waits.2.2 found old
  fresh := by
    rw [added.calls, added.called]
    exact sound.fresh
  registered other member := by
    rw [added.added] at member
    rcases List.mem_cons.mp member with rfl | member
    · exact .inl ⟨entry, by rw [added.sources, OrderedMap.get?_set_self], rfl⟩
    · rcases sound.registered other member with ⟨found, held, same⟩ | stopped
      · have apart : other.name ≠ entry.source.name := by
          intro same
          rw [same, added.absent] at held
          cases held
        exact .inl ⟨found, by rw [added.sources, OrderedMap.get?_set, if_neg apart, held], same⟩
      · exact .inr (added.stopped ▸ stopped)
  evicted := added.removals ▸ sound.evicted
  adopted := added.adoptions ▸ sound.adopted
  removed := added.removals ▸ sound.removed

theorem Sound.addSource (sound : Sound state) (met : meetsAdd source.name state = true)
    (added : addSource source shared state = .ok after) : Sound after := by
  have spec := addSource_added sound added
  refine spec.sound sound ?_ rfl
  simpa [meetsAdd, spec.absent] using met

theorem State.expected_congr {listener : Listener} {name : String}
    (sources : after.sources.get? name = state.sources.get? name) (removing : after.removing name = state.removing name) :
    after.expected listener name = state.expected listener name := by
  rw [expected, sources, removing, expected]

/-- What a removal of an entry changes when it starts. -/
structure Starts (name : String) (entry : Entry) (adopts : Option ToolSource) (state after : State) : Prop where
  registered : state.sources.get? name = some entry
  sources : after.sources = state.sources
  calls : after.calls = state.calls.set state.called (.removing name entry.source state.adds adopts)
  called : after.called = state.called + 1
  adds : after.adds = state.adds
  added : after.added = state.added
  stopped : after.stopped = entry.source :: state.stopped
  removals : after.removals = state.removals
  adoptions : after.adoptions = state.adoptions
  handles : Handles after
  heard : ∀ listener other, after.heard listener other = if other = name then none else state.heard listener other

theorem removeSource_starts (sound : Sound state) (adopts : Option ToolSource)
    (registered : state.sources.get? name = some entry) :
    Starts name entry adopts state (removeSource name adopts state) := by
  obtain ⟨keeps, handles, heard⟩ := unsubscribeBoth_spec sound.handles name
  unfold Registry.removeSource
  rw [registered]
  exact ⟨registered, keeps.sources, rfl, rfl, keeps.adds, keeps.added, rfl, keeps.removals, keeps.adoptions,
    handles.frame rfl rfl rfl, heard⟩

variable {name : String} {entry : Entry} {adopts : Option ToolSource}

theorem Starts.waiting (starts : Starts name entry adopts state after) (sound : Sound state) {call : Call}
    (held : after.calls.get? number = some call) :
    (number = state.called ∧ call = .removing name entry.source state.adds adopts) ∨
      (number < state.called ∧ state.calls.get? number = some call) := by
  rw [starts.calls, OrderedMap.get?_set] at held
  split at held
  · rename_i same
    exact .inl ⟨same, (Option.some.inj held).symm⟩
  · exact .inr ⟨sound.fresh number call held, held⟩

theorem Starts.removing_self (starts : Starts name entry adopts state after) : after.removing name = true :=
  State.removing_iff.mpr ⟨state.called, _, _, _, by rw [starts.calls, OrderedMap.get?_set_self]⟩

theorem Starts.removing (starts : Starts name entry adopts state after) (sound : Sound state) {other : String}
    (apart : other ≠ name) : after.removing other = state.removing other := by
  refine Bool.eq_iff_iff.mpr ?_
  rw [State.removing_iff, State.removing_iff]
  constructor
  · rintro ⟨number, source, calledAt, adopting, held⟩
    rcases starts.waiting sound held with ⟨_, same⟩ | ⟨_, old⟩
    · cases same
      exact absurd rfl apart
    · exact ⟨number, source, calledAt, adopting, old⟩
  · rintro ⟨number, source, calledAt, adopting, held⟩
    have earlier := sound.fresh number _ held
    exact ⟨number, source, calledAt, adopting, by
      rw [starts.calls, OrderedMap.get?_set, if_neg (Nat.ne_of_lt earlier), held]⟩

/-- A removal that starts asks the source to stop and leaves its entry. -/
theorem Starts.sound (starts : Starts name entry adopts state after) (sound : Sound state) : Sound after where
  handles := starts.handles
  heard listener other := by
    rw [starts.heard]
    by_cases same : other = name
    · rw [if_pos same, same, State.expected, starts.removing_self]
      cases after.sources.get? name <;> rfl
    · rw [if_neg same, sound.heard, State.expected_congr (by rw [starts.sources]) (starts.removing sound same)]
  named := starts.sources ▸ sound.named
  dated := by
    rw [starts.sources, starts.adds]
    exact sound.dated
  waits number other waiting calledAt adopting held := by
    rw [Waits, starts.stopped, starts.sources]
    rcases starts.waiting sound held with ⟨_, same⟩ | ⟨_, old⟩
    · cases same
      refine ⟨sound.named name entry starts.registered, List.mem_cons_self .., fun found known => ?_⟩
      cases starts.registered.symm.trans known
      exact ⟨rfl, sound.dated name entry starts.registered⟩
    · have waits := sound.waits number other waiting calledAt adopting old
      exact ⟨waits.1, List.mem_cons_of_mem _ waits.2.1, waits.2.2⟩
  fresh number call held := by
    rw [starts.called]
    rcases starts.waiting sound held with ⟨rfl, _⟩ | ⟨earlier, _⟩
    · exact Nat.lt_succ_self _
    · exact Nat.lt_succ_of_lt earlier
  registered other member := by
    rw [starts.sources, starts.stopped]
    rw [starts.added] at member
    exact (sound.registered other member).imp_right (List.mem_cons_of_mem _)
  evicted := starts.removals ▸ sound.evicted
  adopted := starts.adoptions ▸ sound.adopted
  removed := starts.removals ▸ sound.removed

theorem Sound.removeSource (sound : Sound state) (name : String) (adopts : Option ToolSource) :
    Sound (removeSource name adopts state) := by
  cases registered : state.sources.get? name with
  | none =>
      unfold Registry.removeSource
      rw [registered]
      exact sound
  | some entry => exact (removeSource_starts sound adopts registered).sound sound

/-- What a removal changes when it ends. Its call is gone or goes on as an adoption. -/
structure Finishes (number : Nat) (name : String) (waiting : ToolSource) (calledAt : Nat)
    (adopts : Option ToolSource) (state after : State) : Prop where
  waits : state.calls.get? number = some (.removing name waiting calledAt adopts)
  sources : after.sources = state.sources.delete name
  calls : ∀ other call, after.calls.get? other = some call →
    (other ≠ number ∧ state.calls.get? other = some call) ∨ (other = number ∧ ∃ source, call = .adopting source)
  callsKept : ∀ other, other ≠ number → after.calls.get? other = state.calls.get? other
  called : after.called = state.called
  adds : after.adds = state.adds
  added : after.added = state.added
  stopped : after.stopped = state.stopped
  removals : after.removals =
    ⟨calledAt, adopts.isSome, state.sources.get? name, hasLiveSource name state⟩ :: state.removals
  adoptions : after.adoptions = state.adoptions
  handles : Handles after
  heard : ∀ listener other, after.heard listener other = state.heard listener other

theorem removalGoesOn_finishes (sound : Sound state) (stepped : removalGoesOn number state = some after) :
    ∃ name waiting calledAt adopts, Finishes number name waiting calledAt adopts state after := by
  unfold removalGoesOn at stepped
  split at stepped
  · rename_i name waiting calledAt adopts waits
    cases stepped
    refine ⟨name, waiting, calledAt, adopts, waits, rfl, fun other call held => ?_, fun other apart => ?_, rfl, rfl, rfl,
      rfl, rfl, rfl, sound.handles.frame rfl rfl rfl, fun _ _ => rfl⟩
    · cases adopts with
      | none =>
          simp only [fireInvalidation, OrderedMap.get?_delete] at held
          split at held
          · cases held
          · rename_i apart
            exact .inl ⟨apart, held⟩
      | some source =>
          simp only [fireInvalidation, OrderedMap.get?_set] at held
          split at held
          · rename_i same
            exact .inr ⟨same, source, (Option.some.inj held).symm⟩
          · rename_i apart
            exact .inl ⟨apart, held⟩
    · cases adopts with
      | none => simp only [fireInvalidation, OrderedMap.get?_delete, if_neg apart]
      | some source => simp only [fireInvalidation, OrderedMap.get?_set, if_neg apart]
  · cases stepped

section Finish

variable {number calledAt : Nat} {waiting : ToolSource}

theorem Finishes.found (finishes : Finishes number name waiting calledAt adopts state after) {other : String}
    {found : Entry} (held : after.sources.get? other = some found) :
    other ≠ name ∧ state.sources.get? other = some found := by
  rw [finishes.sources, OrderedMap.get?_delete] at held
  split at held
  · cases held
  · rename_i apart
    exact ⟨apart, held⟩

variable {other : String}

theorem Finishes.kept (finishes : Finishes number name waiting calledAt adopts state after) (apart : other ≠ name) :
    after.sources.get? other = state.sources.get? other := by
  rw [finishes.sources, OrderedMap.get?_delete, if_neg apart]

theorem Finishes.removing (finishes : Finishes number name waiting calledAt adopts state after)
    (apart : other ≠ name) : after.removing other = state.removing other := by
  refine Bool.eq_iff_iff.mpr ?_
  rw [State.removing_iff, State.removing_iff]
  constructor
  · rintro ⟨place, source, called, adopting, held⟩
    rcases finishes.calls place _ held with ⟨_, old⟩ | ⟨_, goes, same⟩
    · exact ⟨place, source, called, adopting, old⟩
    · cases same
  · rintro ⟨place, source, called, adopting, held⟩
    have elsewhere : place ≠ number := by
      rintro rfl
      rw [finishes.waits] at held
      cases held
      exact apart rfl
    exact ⟨place, source, called, adopting, finishes.callsKept place elsewhere ▸ held⟩

/-- A removal that ends unregisters the source that it has stopped. -/
theorem Finishes.sound (finishes : Finishes number name waiting calledAt adopts state after) (sound : Sound state)
    (met : adopts.isSome = true → hasLiveSource name state = false) : Sound after where
  handles := finishes.handles
  heard listener other := by
    rw [finishes.heard, sound.heard]
    by_cases same : other = name
    · have waits := State.removing_iff.mpr ⟨number, waiting, calledAt, adopts, finishes.waits⟩
      rw [same, State.expected, State.expected, finishes.sources, OrderedMap.get?_delete, if_pos rfl, waits]
      cases state.sources.get? name <;> rfl
    · exact (State.expected_congr (finishes.kept same) (finishes.removing same)).symm
  named other found held := sound.named other found (finishes.found held).2
  dated other found held := finishes.adds ▸ sound.dated other found (finishes.found held).2
  waits place other source called adopting held := by
    rcases finishes.calls place _ held with ⟨_, old⟩ | ⟨_, goes, same⟩
    · have waits := sound.waits place other source called adopting old
      exact ⟨waits.1, finishes.stopped ▸ waits.2.1, fun found known => waits.2.2 found (finishes.found known).2⟩
    · cases same
  fresh place call held := by
    rw [finishes.called]
    rcases finishes.calls place call held with ⟨_, old⟩ | ⟨rfl, _⟩
    · exact sound.fresh place call old
    · exact sound.fresh place _ finishes.waits
  registered source member := by
    rw [finishes.added] at member
    rw [finishes.stopped]
    rcases sound.registered source member with ⟨found, known, own⟩ | stopped
    · by_cases same : source.name = name
      · have waits := sound.waits number name waiting calledAt adopts finishes.waits
        rw [same] at known
        exact .inr (own ▸ (waits.2.2 found known).1 ▸ waits.2.1)
      · exact .inl ⟨found, by rw [finishes.kept same, known], own⟩
    · exact .inr stopped
  evicted removal member := by
    rw [finishes.removals] at member
    rcases List.mem_cons.mp member with rfl | member
    · exact met
    · exact sound.evicted removal member
  adopted := finishes.adoptions ▸ sound.adopted
  removed removal member found known := by
    rw [finishes.removals] at member
    rcases List.mem_cons.mp member with rfl | member
    · exact ((sound.waits number name waiting calledAt adopts finishes.waits).2.2 found known).2
    · exact sound.removed removal member found known

end Finish

/-- The answer of an adoption is noted with the entry of its name. -/
theorem Sound.answers (sound : Sound state) {answer : Bool}
    (own : answer = true → ∃ entry, state.sources.get? source.name = some entry ∧ entry.source = source) :
    Sound (answers source answer state) where
  handles := sound.handles.frame rfl rfl rfl
  heard := sound.heard
  named := sound.named
  dated := sound.dated
  waits := sound.waits
  fresh := sound.fresh
  registered := sound.registered
  evicted := sound.evicted
  adopted adoption member := by
    rcases List.mem_cons.mp member with rfl | member
    · exact own
    · exact sound.adopted adoption member
  removed := sound.removed

theorem Sound.adoptionAdds (sound : Sound state) (met : meetsAdd source.name state = true) :
    Sound (adoptionAdds source state) := by
  unfold Registry.adoptionAdds
  cases added : Registry.addSource source false state with
  | error text => exact sound
  | ok after =>
      have spec := addSource_added sound added
      refine (sound.addSource met added).answers fun _ => ⟨⟨source, false, state.adds⟩, ?_, rfl⟩
      rw [spec.sources]
      exact OrderedMap.get?_set_self ..

theorem Sound.adoptSource (sound : Sound state) (met : meetsAdd source.name state = true) :
    Sound (adoptSource source state) := by
  unfold Registry.adoptSource
  split
  · refine sound.answers fun own => ?_
    obtain ⟨entry, registered, same⟩ := Option.any_eq_true .. |>.mp own
    exact ⟨entry, registered, of_decide_eq_true same⟩
  · split
    · exact sound.removeSource source.name (some source)
    · exact sound.adoptionAdds met

/-- The call of an adoption is adopts before its source is added. -/
theorem Sound.forgets (sound : Sound state) (adopts : state.calls.get? number = some (.adopting source)) :
    Sound { state with calls := state.calls.delete number } ∧
      ∀ name, ({ state with calls := state.calls.delete number } : State).removing name = state.removing name := by
  have old {place : Nat} {call : Call} (held : (state.calls.delete number).get? place = some call) :
      state.calls.get? place = some call := by
    rw [OrderedMap.get?_delete] at held
    split at held
    · cases held
    · exact held
  have removing (name : String) :
      ({ state with calls := state.calls.delete number } : State).removing name = state.removing name := by
    refine Bool.eq_iff_iff.mpr ?_
    rw [State.removing_iff, State.removing_iff]
    constructor
    · rintro ⟨place, waiting, calledAt, adopting, held⟩
      exact ⟨place, waiting, calledAt, adopting, old held⟩
    · rintro ⟨place, waiting, calledAt, adopting, held⟩
      refine ⟨place, waiting, calledAt, adopting, ?_⟩
      rw [OrderedMap.get?_delete, if_neg, held]
      rintro rfl
      rw [adopts] at held
      cases held
  refine ⟨⟨sound.handles.frame rfl rfl rfl, fun listener name => ?_, sound.named, sound.dated, ?_, ?_, sound.registered,
    sound.evicted, sound.adopted, sound.removed⟩, removing⟩
  · exact (sound.heard listener name).trans
      (@State.expected_congr state { state with calls := state.calls.delete number } listener name rfl (removing name)).symm
  · exact fun place name waiting calledAt adopting held => sound.waits place name waiting calledAt adopting (old held)
  · exact fun place call held => sound.fresh place call (old held)

/-- Every orderly step keeps the invariant. -/
theorem Sound.step (sound : Sound state) {action : Action} (met : meets state action = true)
    (stepped : step state action = some after) : Sound after := by
  cases action with
  | changes source alive =>
      cases stepped
      exact ⟨sound.handles.frame rfl rfl rfl, sound.heard, sound.named, sound.dated, sound.waits, sound.fresh,
        sound.registered, sound.evicted, sound.adopted, sound.removed⟩
  | addSource source shared =>
      simp only [Registry.step] at stepped
      cases added : Registry.addSource source shared state with
      | error text =>
          rw [added] at stepped
          exact Option.some.inj stepped ▸ sound
      | ok next =>
          rw [added] at stepped
          exact Option.some.inj stepped ▸ sound.addSource met added
  | removeSource name => exact Option.some.inj stepped ▸ sound.removeSource name none
  | removalGoesOn number =>
      obtain ⟨name, waiting, calledAt, adopts, finishes⟩ := removalGoesOn_finishes sound stepped
      refine finishes.sound sound fun evicts => ?_
      obtain ⟨source, rfl⟩ := Option.isSome_iff_exists.mp evicts
      simpa [meets, meetsEviction, finishes.waits] using met
  | adoptSource source => exact Option.some.inj stepped ▸ sound.adoptSource met
  | adoptionGoesOn number =>
      simp only [Registry.step, adoptionGoesOn] at stepped
      split at stepped
      · rename_i source adopts
        cases stepped
        obtain ⟨forgot, removing⟩ := sound.forgets adopts
        refine forgot.adoptionAdds ?_
        rw [meetsAdd, removing]
        simpa [meets, meetsAdoption, adopts, meetsAdd] using met
      · cases stepped

end Steps

theorem sound_initial (alive : ToolSource → Bool) : Sound { alive } where
  handles := ⟨nofun, nofun, nofun⟩
  heard _ _ := rfl
  named := nofun
  dated := nofun
  waits := nofun
  fresh := nofun
  registered := nofun
  evicted := nofun
  adopted := nofun
  removed := nofun

theorem registry_starts (alive : ToolSource → Bool) : ToolRegistry.initial { alive } := ⟨alive, rfl⟩

def notes (object : Nat) : ToolSource := { object, name := "notes" }

/-- A dead source is replaced, and the one that replaces it is removed after it came up. -/
def reconnect : List Action :=
  [.addSource (notes 0) false, .adoptSource (notes 1), .removalGoesOn 0, .adoptionGoesOn 0, .changes (notes 1) true,
    .adoptSource (notes 2), .removeSource "notes", .removalGoesOn 1]

/-- An orderly registry leaks no source in any state of any run. -/
theorem orderly_registry_leaks_nothing {state : State} (reached : ToolRegistry.ReachedBy Orderly state) :
    NoLeak state := by
  refine Sound.noLeak (reached.invariant Sound (fun first started => ?_) fun _ _ _ sound met stepped =>
    sound.step met stepped)
  obtain ⟨alive, rfl⟩ := started
  exact sound_initial alive

theorem reconnect_leaks_nothing : ∃ state, ToolRegistry.run { alive := fun _ => false } reconnect = some state ∧
    state.stopped = [notes 1, notes 0] ∧ NoLeak state := by
  have ran : (ToolRegistry.run { alive := fun _ => false } reconnect).any
      (fun state => state.stopped = [notes 1, notes 0]) = true := by decide +kernel
  have good : ToolRegistry.Meets Orderly { alive := fun _ => false } reconnect := by decide +kernel
  obtain ⟨state, ran, stopped⟩ := Option.any_eq_true .. |>.mp ran
  exact ⟨state, ran, of_decide_eq_true stopped, orderly_registry_leaks_nothing (.run (.start _ (registry_starts _)) good ran)⟩

/-- Two removals of a name overlap. A source is added between their ends. -/
def overlap : List Action :=
  [.addSource (notes 0) false, .removeSource "notes", .removeSource "notes", .removalGoesOn 0,
    .addSource (notes 1) false, .removalGoesOn 1]

/-- The second removal drops the new source, which nothing stops. -/
theorem later_source_is_dropped : ¬ ∀ state, ToolRegistry.Reachable state → NoLeak state := by
  intro kept
  have ran : (ToolRegistry.run { alive := fun _ => true } overlap).any
      (fun state => notes 1 ∈ state.added && state.sources.get? "notes" = none && notes 1 ∉ state.stopped) = true := by
    decide +kernel
  obtain ⟨state, ran, shown⟩ := Option.any_eq_true .. |>.mp ran
  simp only [Bool.and_eq_true, decide_eq_true_eq] at shown
  obtain ⟨⟨added, gone⟩, running⟩ := shown
  rcases (kept state (.run (.start _ (registry_starts _)) ran)).registered _ added with ⟨entry, found, _⟩ | stopped
  · rw [show (notes 1).name = "notes" from rfl, gone] at found
    cases found
  · exact running stopped

end NimbleBrain.McpSource.Registry
