import Mathlib.Data.List.Sort
import Mathlib.Data.List.Rotate
import NimbleBrain.Library.JsonText

/- The poller reads the outboxes of a workspace in rotation, until the allowance of the minute runs out. -/

namespace NimbleBrain.Notifications

open Library

/-- A fixed window of one minute. -/
structure PollWindow where
  startedAt : Int
  used : Nat
  deriving DecidableEq

/-- Take one poll's allowance, or report that the window is spent. -/
def PollWindow.take (perMinute : Nat) (window : Option PollWindow) (now : Int) : Bool × Option PollWindow :=
  match window with
  | none => (true, some { startedAt := now, used := 1 })
  | some window =>
      if 60000 ≤ now - window.startedAt then (true, some { startedAt := now, used := 1 })
      else if perMinute ≤ window.used then (false, some window)
      else (true, some { window with used := window.used + 1 })

/-- What the poller keeps for one workspace. -/
structure Poller where
  stopped : Bool
  inFlight : Bool
  window : Option PollWindow
  resumeAt : Option Utf16
  deriving DecidableEq

/-- What one read of an outbox meets: its answer, the time after it, and whether the poller was stopped meanwhile. -/
structure PollRead where
  ok : Bool
  hasMore : Bool
  now : Int
  stop : Bool

/-- What one source's turn meets: a stop before it, the time of its first allowance, and its reads. -/
structure PollTurn where
  stop : Bool
  now : Int
  reads : Nat → PollRead

def maxChainedReads : Nat := 5

def Poller.noteStop (poller : Poller) (stop : Bool) : Poller :=
  { poller with stopped := poller.stopped || stop }

def Poller.take (perMinute : Nat) (poller : Poller) (now : Int) : Bool × Poller :=
  let (granted, window) := PollWindow.take perMinute poller.window now
  (granted, { poller with window := window })

/-- The reads chain while the server says there is more. -/
def chainReads (perMinute : Nat) (target : Utf16) (reads : Nat → PollRead) :
    Nat → Nat → Poller → Poller × List Utf16
  | 0, _, poller => (poller, [])
  | left + 1, index, poller =>
      if poller.stopped then (poller, [])
      else
        let read := reads index
        let poller := poller.noteStop read.stop
        if !read.ok || !read.hasMore then (poller, [target])
        else
          let (granted, poller) := poller.take perMinute read.now
          if !granted then (poller, [target])
          else
            let (poller, more) := chainReads perMinute target reads left (index + 1) poller
            (poller, target :: more)

/-- One outbox is read, with the answer's further batches. -/
def pollSource (perMinute : Nat) (target : Utf16) (reads : Nat → PollRead) (poller : Poller) : Poller × List Utf16 :=
  chainReads perMinute target reads maxChainedReads 0 poller

/-- The due sources take their turns until the allowance is spent, and the first one left out is remembered. -/
def sweepFrom (perMinute : Nat) (turns : Nat → PollTurn) : List Utf16 → Nat → Poller → Poller × List Utf16
  | [], _, poller => ({ poller with resumeAt := none }, [])
  | target :: rest, index, poller =>
      let turn := turns index
      let poller := poller.noteStop turn.stop
      if poller.stopped then (poller, [])
      else
        let (granted, poller) := poller.take perMinute turn.now
        if !granted then ({ poller with resumeAt := some target }, [])
        else
          let (poller, read) := pollSource perMinute target turn.reads poller
          let (poller, others) := sweepFrom perMinute turns rest (index + 1) poller
          (poller, read ++ others)

/-- Rotate a name-ordered list so it begins at the first name that is no smaller by code units. -/
def rotate (targets : List Utf16) : Option Utf16 → List Utf16
  | none => targets
  | some resumeAt =>
      match targets.findIdx? (fun target => decide (resumeAt ≤ target)) with
      | some (index + 1) => targets.drop (index + 1) ++ targets.take (index + 1)
      | _ => targets

/-- A workspace's sources in the order of `localeCompare`. -/
def groupOrder (locale : LinearOrder Utf16) (targets : List Utf16) : List Utf16 :=
  @List.insertionSort Utf16 locale.le locale.toDecidableLE targets

/-- One sweep of the workspace, with the names it read. -/
def sweepWorkspace (locale : LinearOrder Utf16) (perMinute : Nat) (targets : List Utf16) (isDue : Utf16 → Bool)
    (turns : Nat → PollTurn) (poller : Poller) : Poller × List Utf16 :=
  if poller.inFlight then (poller, [])
  else
    let due := rotate ((groupOrder locale targets).filter isDue) poller.resumeAt
    sweepFrom perMinute turns due 0 poller

/-- A pushed hint reads one outbox out of turn, from the same allowance. -/
def pollOnHint (perMinute : Nat) (target : Utf16) (turn : PollTurn) (poller : Poller) : Poller :=
  if poller.stopped || poller.inFlight then poller
  else
    let (granted, poller) := poller.take perMinute turn.now
    if !granted then poller
    else { (pollSource perMinute target turn.reads poller).1 with inFlight := true }

/-- What happens to a workspace's poller. A hinted read stays in flight until it is done. -/
inductive PollAction where
  | sweep (targets : List Utf16) (isDue : Utf16 → Bool) (turns : Nat → PollTurn)
  | hint (target : Utf16) (turn : PollTurn)
  | hintDone
  | stop

variable (locale : LinearOrder Utf16) (perMinute : Nat)

/-- The poller after the actions, and what each sweep on the way read. -/
def runPolls : Poller → List PollAction → Poller × List (List Utf16)
  | poller, [] => (poller, [])
  | poller, .sweep targets isDue turns :: rest =>
      let (poller, read) := sweepWorkspace locale perMinute targets isDue turns poller
      let (poller, reads) := runPolls poller rest
      (poller, read :: reads)
  | poller, .hint target turn :: rest => runPolls (pollOnHint perMinute target turn poller) rest
  | poller, .hintDone :: rest => runPolls { poller with inFlight := false } rest
  | poller, .stop :: rest => runPolls { poller with stopped := true } rest

def sweepReads (poller : Poller) (actions : List PollAction) : List (List Utf16) :=
  (runPolls locale perMinute poller actions).2

/-- Every sweep finds the sources present and due. -/
def Steady (sources : List Utf16) : PollAction → Prop
  | .sweep targets isDue _ => targets.Perm sources ∧ ∀ source ∈ sources, isDue source = true
  | _ => True

/-- From any poller, as many sweeps as there are sources read every source, when each of them reads one at least. -/
def StarvesNone (sources : List Utf16) : Prop :=
  ∀ (start : Poller) (actions : List PollAction), (∀ action ∈ actions, Steady sources action) →
    (∀ read ∈ sweepReads locale perMinute start actions, read ≠ []) →
    (sweepReads locale perMinute start actions).length = sources.length →
    ∀ source ∈ sources, source ∈ (sweepReads locale perMinute start actions).flatten

/-- The sources stand in the same order by `localeCompare` and by code units. -/
def OrdersAgree (sources : List Utf16) : Prop :=
  ∀ first ∈ sources, ∀ second ∈ sources, locale.lt first second → first < second

end NimbleBrain.Notifications
