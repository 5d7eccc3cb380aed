import NimbleBrain.Library.Table
import NimbleBrain.Library.Transition
import NimbleBrain.Spend.Pricing

/- One live balance is kept for each account that a run in flight names. -/

namespace NimbleBrain.Spend

open Library

structure SpendAccount where
  id : String
  unit : SpendUnit
  remaining : ℚ

structure Live where
  unit : SpendUnit
  balance : ℚ
  reserved : ℚ
  holders : Nat

/-- The reservation keeps one amount for each account from a check until its debit. -/
structure SpendHold where
  ids : List String
  rates : Option UsageRates
  reservation : List (String × ℚ) := []
  released : Bool := false

def SpendHold.reservedOn (hold : SpendHold) (id : String) : ℚ := (hold.reservation.lookup id).getD 0

def SpendHold.worst (hold : SpendHold) : Option WorstRates := hold.rates.map worstRates

structure SpendCall where
  inputTokens : Nat
  maxOutputTokens : Nat
  minOutputTokens : Nat

inductive SpendAnswer where
  | allowed (maxOutputTokens : ℤ)
  | refused (accountId : String)
  deriving DecidableEq

/-- The first run to name an account sets its unit and balance. -/
def join (account : SpendAccount) : Option Live → Live
  | some entry => { entry with holders := entry.holders + 1 }
  | none => ⟨account.unit, account.remaining, 0, 1⟩

/-- A run that names an account twice holds it once. -/
def openEach : List SpendAccount → List String → Table String Live → List String × Table String Live
  | [], ids, live => (ids, live)
  | account :: rest, ids, live =>
      if account.id ∈ ids then openEach rest ids live
      else openEach rest (ids ++ [account.id])
        (Function.update live account.id (some (join account (live account.id))))

def Allowance.clamp (allowed : ℤ) : Allowance → Option ℤ
  | .refused => none
  | .unlimited => some allowed
  | .upTo tokens => some (min allowed tokens)

def SpendCall.floor (call : SpendCall) : ℤ := min call.minOutputTokens call.maxOutputTokens

/-- Each account clamps the output in turn. The first that cannot pay refuses the call. -/
def clampEach (call : SpendCall) (rates : Option WorstRates) (live : Table String Live) :
    List String → ℤ → SpendAnswer
  | [], allowed => .allowed allowed
  | id :: rest, allowed =>
      match live id with
      | none => .refused id
      | some entry =>
          match (outputAllowance entry.unit (entry.balance - entry.reserved) call.inputTokens rates).clamp
              allowed with
          | none => .refused id
          | some clamped =>
              if clamped < call.floor then .refused id else clampEach call rates live rest clamped

/-- The worst case of the call against one account. -/
def worstCase (call : SpendCall) (rates : Option WorstRates) (allowed : ℤ) (entry : Live) : ℚ :=
  projectedCost entry.unit call.inputTokens allowed rates

def reserveEach (call : SpendCall) (rates : Option WorstRates) (allowed : ℤ) (ids : List String)
    (live : Table String Live) : Table String Live :=
  Table.alterEach (fun _ entry =>
    some { entry with reserved := entry.reserved + worstCase call rates allowed entry }) ids live

def reservations (call : SpendCall) (rates : Option WorstRates) (allowed : ℤ) (ids : List String)
    (live : Table String Live) : List (String × ℚ) :=
  ids.filterMap fun id => (live id).map fun entry => (id, worstCase call rates allowed entry)

def debitEach (usage : TokenUsage) (hold : SpendHold) (live : Table String Live) : Table String Live :=
  Table.alterEach (fun _ entry =>
    some { entry with balance := entry.balance - spendIn entry.unit usage hold.rates }) hold.ids live

/-- The last run to release an account discards its balance. -/
def releaseEach (ids : List String) (live : Table String Live) : Table String Live :=
  Table.alterEach (fun _ entry =>
    if entry.holders - 1 = 0 then none else some { entry with holders := entry.holders - 1 }) ids live

/-- The store of live balances with every hold it gave out. -/
structure SpendBalances where
  live : Table String Live := fun _ => none
  holds : List SpendHold := []

namespace SpendBalances

def openAccounts (balances : SpendBalances) (accounts : List SpendAccount) (rates : Option UsageRates) :
    SpendBalances :=
  let opened := openEach accounts [] balances.live
  { live := opened.2, holds := balances.holds ++ [{ ids := opened.1, rates := rates }] }

/-- The hold gives back its reservation on every account. -/
def unreserve (balances : SpendBalances) (index : Nat) (hold : SpendHold) : SpendBalances where
  live := Table.alterEach
    (fun id entry => some { entry with reserved := entry.reserved - hold.reservedOn id })
    (hold.reservation.map Prod.fst) balances.live
  holds := balances.holds.set index { hold with reservation := [] }

/-- A check replaces the reservation the hold still has. -/
def check (balances : SpendBalances) (index : Nat) (hold : SpendHold) (call : SpendCall) :
    SpendBalances × SpendAnswer :=
  let cleared := balances.unreserve index hold
  match clampEach call hold.worst cleared.live hold.ids call.maxOutputTokens with
  | .refused accountId => (cleared, .refused accountId)
  | .allowed allowed =>
      ({ live := reserveEach call hold.worst allowed hold.ids cleared.live
         holds := cleared.holds.set index { hold with
           reservation := reservations call hold.worst allowed hold.ids cleared.live } },
        .allowed allowed)

def debit (balances : SpendBalances) (index : Nat) (hold : SpendHold) (usage : TokenUsage) :
    SpendBalances :=
  let cleared := balances.unreserve index hold
  { cleared with live := debitEach usage hold cleared.live }

def release (balances : SpendBalances) (index : Nat) (hold : SpendHold) : SpendBalances :=
  if hold.released then balances
  else
    let cleared := balances.unreserve index hold
    { live := releaseEach hold.ids cleared.live
      holds := cleared.holds.set index { hold with reservation := [], released := true } }

def balance (balances : SpendBalances) (id : String) : Option ℚ := (balances.live id).map (·.balance)

end SpendBalances

inductive Action where
  | openAccounts (accounts : List SpendAccount) (rates : Option UsageRates)
  | check (hold : Nat) (call : SpendCall)
  | debit (hold : Nat) (usage : TokenUsage)
  | release (hold : Nat)

/-- A hold is not checked or debited after its release. -/
def SpendBalances.step (balances : SpendBalances) : Action → Option SpendBalances
  | .openAccounts accounts rates => some (balances.openAccounts accounts rates)
  | .check index call =>
      balances.holds[index]?.bind fun hold =>
        if hold.released then none else some (balances.check index hold call).1
  | .debit index usage =>
      balances.holds[index]?.bind fun hold =>
        if hold.released then none else some (balances.debit index hold usage)
  | .release index => balances.holds[index]?.map (balances.release index)

def spendBalances : System SpendBalances Action where
  initial balances := balances = {}
  step := SpendBalances.step

end NimbleBrain.Spend
