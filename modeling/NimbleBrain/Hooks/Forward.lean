import NimbleBrain.Library.OrderedMap

/- A delivery is forwarded with the headers of its sender and the credential of its connection. -/

namespace NimbleBrain.Hooks

open Library

/-- The headers of a request, by lowercase name. -/
abbrev Headers := OrderedMap String String

def strippedRequestHeaders : List String :=
  ["authorization", "cookie", "x-api-key", "x-tenant-id", "x-workspace-id", "x-subject-token", "traceparent",
    "tracestate", "host", "connection", "keep-alive", "proxy-authorization", "transfer-encoding", "upgrade",
    "content-length", "expect"]

def isBrowserCredentialHeader (lowerName : String) : Bool := lowerName = "cookie"

def isStrippedRequestHeader (lowerName : String) : Bool :=
  lowerName ∈ strippedRequestHeaders || lowerName = "x-user-id" || lowerName.startsWith "x-nb-"

/-- What a request reads of a header name. -/
structure Host where
  toLowerCase : String → String
  isHeaderName : String → Bool

/-- A declared rename never leads into the stripped class. -/
structure HeaderRenames where
  names : OrderedMap String String
  apart : ∀ entry ∈ names.entries, isStrippedRequestHeader entry.2 = false

/-- The own properties are read in order. A value that is no text is `none`, and a text is never set as `__proto__`. -/
def parseRenames (host : Host) : List (String × Option String) → HeaderRenames → HeaderRenames
  | (source, some target) :: rest, out =>
      if host.isHeaderName source ∧ ¬isBrowserCredentialHeader (host.toLowerCase source) ∧
          host.isHeaderName target ∧ host.toLowerCase source ≠ "__proto__" then
        if outside : isStrippedRequestHeader (host.toLowerCase target) = false then
          parseRenames host rest {
            names := out.names.set (host.toLowerCase source) (host.toLowerCase target)
            apart := by
              intro entry member
              rcases OrderedMap.mem_set.mp member with rfl | ⟨member, _⟩
              · exact outside
              · exact out.apart entry member }
        else parseRenames host rest out
      else parseRenames host rest out
  | (_, none) :: rest, out => parseRenames host rest out
  | [], out => out

/-- A declaration without a rename keeps no record of renames. -/
def parseHeaderRenames (host : Host) (raw : List (String × Option String)) : Option HeaderRenames :=
  let out := parseRenames host raw ⟨∅, nofun⟩
  if 0 < out.names.size then some out else none

/-- What a property of a plain object holds. The names of its prototype are there without a rename. -/
inductive Property where
  | absent
  | own (target : String)
  | inherited
  deriving DecidableEq

def HeaderRenames.property (renames : Option HeaderRenames) (name : String) : Property :=
  match renames with
  | none => .absent
  | some renames =>
      match renames.names.get? name with
      | some target => if target = "" then .absent else .own target
      | none => if name = "constructor" ∨ name = "__proto__" then .inherited else .absent

/-- A value of the prototype is no header name, and setting it throws. -/
def forwardInbound (renames : Option HeaderRenames) : List (String × String) → Headers → Option Headers
  | [], headers => some headers
  | (name, value) :: rest, headers =>
      if isBrowserCredentialHeader name then forwardInbound renames rest headers
      else
        match HeaderRenames.property renames name with
        | .inherited => none
        | .own target => forwardInbound renames rest (headers.set target value)
        | .absent =>
            if isStrippedRequestHeader name then forwardInbound renames rest headers
            else forwardInbound renames rest (headers.set name value)

/-- The credential comes last, so that no sender displaces it. -/
def buildForwardHeaders (host : Host) (inbound : List (String × String)) (renames : Option HeaderRenames)
    (credentialHeaders : List (String × String)) : Option Headers :=
  (forwardInbound renames inbound ∅).map fun headers =>
    credentialHeaders.foldl (fun headers entry => headers.set (host.toLowerCase entry.1) entry.2) headers

variable {renames : Option HeaderRenames} {inbound : List (String × String)} {headers result : Headers}

/-- No header of the stripped class is set for the sender. -/
theorem forwardInbound_apart (before : ∀ entry ∈ headers.entries, isStrippedRequestHeader entry.1 = false)
    (forwarded : forwardInbound renames inbound headers = some result) :
    ∀ entry ∈ result.entries, isStrippedRequestHeader entry.1 = false := by
  have set {headers : Headers} {name : String} (value : String) (outside : isStrippedRequestHeader name = false)
      (before : ∀ entry ∈ headers.entries, isStrippedRequestHeader entry.1 = false) :
      ∀ entry ∈ (headers.set name value).entries, isStrippedRequestHeader entry.1 = false := by
    intro entry member
    rcases OrderedMap.mem_set.mp member with rfl | ⟨member, _⟩
    · exact outside
    · exact before entry member
  induction inbound generalizing headers with
  | nil => exact Option.some.inj forwarded ▸ before
  | cons first rest ih =>
      rw [forwardInbound] at forwarded
      split at forwarded
      · exact ih before forwarded
      · split at forwarded
        · cases forwarded
        · next target named =>
            refine ih (set _ ?_ before) forwarded
            unfold HeaderRenames.property at named
            split at named
            · cases named
            · next renames =>
                split at named
                · next found =>
                    split at named
                    · cases named
                    · cases named
                      exact renames.apart _ (OrderedMap.get?_eq_some_iff.mp found)
                · split at named <;> cases named
        · split at forwarded
          · exact ih before forwarded
          · next outside => exact ih (set _ (eq_false_of_ne_true outside) before) forwarded

theorem get?_credentials (host : Host) {credentialHeaders : List (String × String)} {name value : String}
    (found : (credentialHeaders.foldl (fun headers entry => headers.set (host.toLowerCase entry.1) entry.2)
      headers).get? name = some value) :
    (∃ entry ∈ credentialHeaders, host.toLowerCase entry.1 = name ∧ entry.2 = value) ∨
      headers.get? name = some value := by
  induction credentialHeaders generalizing headers with
  | nil => exact .inr found
  | cons first rest ih =>
      rcases ih found with ⟨entry, member, same⟩ | found
      · exact .inl ⟨entry, List.mem_cons_of_mem _ member, same⟩
      · rw [OrderedMap.get?_set] at found
        split at found
        · next same => exact .inl ⟨first, List.mem_cons_self, same.symm, Option.some.inj found⟩
        · exact .inr found

/-- A forwarded header that says who sends is the credential's. -/
theorem forward_asserts_no_identity (host : Host) {credentialHeaders : List (String × String)} {name value : String}
    (built : buildForwardHeaders host inbound renames credentialHeaders = some result)
    (stripped : isStrippedRequestHeader name = true) (found : result.get? name = some value) :
    ∃ entry ∈ credentialHeaders, host.toLowerCase entry.1 = name ∧ entry.2 = value := by
  obtain ⟨headers, forwarded, rfl⟩ := Option.map_eq_some_iff.mp built
  refine (get?_credentials host found).resolve_right fun sent => ?_
  have outside := forwardInbound_apart (by simp) forwarded _ (OrderedMap.get?_eq_some_iff.mp sent)
  exact Bool.false_ne_true (outside.symm.trans stripped)

theorem forward_asserts_no_identity_forged :
    ∃ entry ∈ [("authorization", "own")], id entry.1 = "authorization" ∧ entry.2 = "own" :=
  @forward_asserts_no_identity none [("authorization", "forged")] _ ⟨id, fun _ => true⟩ _ _ _ rfl (by decide) rfl

/-- Whether a header of the sender is read at all. -/
def isRead (renames : Option HeaderRenames) (entry : String × String) : Bool :=
  !isBrowserCredentialHeader entry.1 &&
    (HeaderRenames.property renames entry.1 ≠ .absent || !isStrippedRequestHeader entry.1)

/-- The cookies and the stripped headers that no rename names have no effect on what is forwarded. -/
theorem forward_ignores_unread (host : Host) (inbound : List (String × String)) (renames : Option HeaderRenames)
    (credentialHeaders : List (String × String)) :
    buildForwardHeaders host inbound renames credentialHeaders =
      buildForwardHeaders host (inbound.filter (isRead renames)) renames credentialHeaders := by
  have same : ∀ headers, forwardInbound renames inbound headers =
      forwardInbound renames (inbound.filter (isRead renames)) headers := by
    induction inbound with
    | nil => exact fun _ => rfl
    | cons first rest ih =>
        intro headers
        obtain ⟨name, value⟩ := first
        cases browser : isBrowserCredentialHeader name <;> cases named : HeaderRenames.property renames name <;>
          cases stripped : isStrippedRequestHeader name <;>
          simp [forwardInbound, isRead, browser, named, stripped, ih]
  rw [buildForwardHeaders, same, buildForwardHeaders]

end NimbleBrain.Hooks
