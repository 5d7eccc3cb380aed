import NimbleBrain.Library.IpAddress

/- This file checks the URL of a remote connector before a connection is made. -/

namespace NimbleBrain.Connectors

open Library.Ip

/-- A name whose last label is a number is read as an address of four bytes. -/
def endsInANumber (name : Text) : Bool :=
  let labels := name.splitOn '.'
  let labels := if labels.getLast? = some [] then labels.dropLast else labels
  match labels.getLast? with
  | none => false
  | some [] => false
  | some ('0' :: 'x' :: digits) => digits.all fun c => (hexDigit? c).isSome
  | some label => label.all Char.isDigit

/-- A DNS name as the URL parser leaves it. -/
structure DomainName where
  text : Text
  lower : text.map Char.toLower = text
  plain : ':' ∉ text ∧ '[' ∉ text
  named : endsInANumber text = false

/-- Only a URL of another scheme has a host that the parser does not read. -/
inductive Host
  | domain (name : DomainName)
  | ipv4 (address : Ipv4)
  | ipv6 (address : Ipv6)
  | unread (text : Text)

def Host.hostname : Host → Text
  | domain name => name.text
  | ipv4 address => address.text
  | ipv6 address => '[' :: (address.text ++ [']'])
  | unread text => text

def https : Text := "https:".toList

def http : Text := "http:".toList

structure URL where
  protocol : Text
  username : Text
  password : Text
  host : Host
  /-- The whole URL as it is printed. -/
  href : Text
  special : protocol = https ∨ protocol = http → ∀ text, host ≠ .unread text

def URL.hostname (url : URL) : Text := url.host.hostname

structure ConnectorOptions where
  allowInsecure : Option Bool
  fleetInternal : Option Bool

def begins (start : String) (text : Text) : Bool := start.toList.isPrefixOf text

def metadataHostnames : List Text :=
  ["metadata.google.internal".toList, "metadata.goog".toList, "instance-data".toList]

/-- The pattern of 172.16.0.0/12 has one alternative for each second byte. -/
def beginsTwelve (text : Text) : Bool :=
  ["16", "17", "18", "19", "20", "21", "22", "23", "24", "25", "26", "27", "28", "29", "30", "31"].any fun second =>
    begins ("172." ++ second ++ ".") text

def privateIpv4Patterns : List (Text → Bool) :=
  [begins "127.", begins "10.", beginsTwelve, begins "192.168.", begins "169.254.", begins "0."]

def privateIpv6Patterns : List (Text → Bool) :=
  [(· = "::1".toList), (· = "[::1]".toList), begins "fc", begins "fd", begins "[fc", begins "[fd"]

def bareHostname (hostname : Text) : Text :=
  if hostname.head? = some '[' ∧ hostname.getLast? = some ']' then hostname.tail.dropLast else hostname

/-- A host name has plain letters only. -/
def toLowerCase (text : Text) : Text := text.map Char.toLower

def isDecimalGroup (row : Text) : Bool := 1 ≤ row.length && row.length ≤ 3 && row.all Char.isDigit

def isHexGroup (row : Text) : Bool := 1 ≤ row.length && row.length ≤ 4 && row.all fun c => (hexDigit? c).isSome

/-- A form such as ::ffff:127.0.0.1, and the part behind the mark. -/
def mappedDotted (bare : Text) : Option Text :=
  match bare.splitOn ':' with
  | [[], [], mark, quad] =>
      if toLowerCase mark = "ffff".toList && (quad.splitOn '.').length = 4 && (quad.splitOn '.').all isDecimalGroup then
        some quad
      else none
  | _ => none

/-- A form such as ::ffff:7f00:1, and the two groups behind the mark. -/
def mappedHex (bare : Text) : Option (Text × Text) :=
  match bare.splitOn ':' with
  | [[], [], mark, high, low] =>
      if toLowerCase mark = "ffff".toList && isHexGroup high && isHexGroup low then some (high, low) else none
  | _ => none

def extractMappedIpv4 (bare : Text) : Option Text :=
  match mappedDotted bare with
  | some quad => some quad
  | none =>
      match mappedHex bare with
      | some (high, low) =>
          let hi := ofHex high
          let lo := ofHex low
          some (decimal (hi / 256 % 256) ++ '.' :: (decimal (hi % 256) ++ '.' ::
            (decimal (lo / 256 % 256) ++ '.' :: decimal (lo % 256))))
      | none => none

def isPrivateHostname (hostname : Text) : Bool :=
  let bare := toLowerCase (bareHostname hostname)
  if metadataHostnames.contains bare then true
  else
    match extractMappedIpv4 bare with
    | some embeddedIpv4 => privateIpv4Patterns.any fun pattern => pattern embeddedIpv4
    | none =>
        if privateIpv4Patterns.any fun pattern => pattern bare then true
        else privateIpv6Patterns.any fun pattern => pattern bare

def isLocalhostHostname (hostname : Text) : Bool :=
  let bare := toLowerCase (bareHostname hostname)
  if bare = "localhost".toList || bare = "127.0.0.1".toList || bare = "::1".toList || bare = "[::1]".toList then true
  else (extractMappedIpv4 bare).any (begins "127.")

def isInClusterHostname (hostname : Text) : Bool :=
  let bare := toLowerCase (bareHostname hostname)
  ".svc.cluster.local".toList.isSuffixOf bare || ".svc".toList.isSuffixOf bare

def assertNoEmbeddedCredentials (url : URL) : Except Text Unit :=
  if url.username ≠ [] ∨ url.password ≠ [] then
    throw ("Remote connector URL must not contain embedded credentials: ".toList ++ url.href)
  else pure ()

def assertNotPrivateAddress (url : URL) : Except Text Unit :=
  if isPrivateHostname url.hostname && !isLocalhostHostname url.hostname then
    throw ("Remote connector URL resolves to a private/reserved address: ".toList ++ url.hostname)
  else pure ()

def insecureProtocolMessage (url : URL) : Text :=
  "Remote connector URL must use HTTPS (got ".toList ++ url.protocol ++ "//".toList ++ url.hostname ++ "). ".toList ++
    (if isLocalhostHostname url.hostname then
      "Set \"allowInsecureRemotes\": true in nimblebrain.json for local development.".toList
    else "Non-HTTPS remote connections are not permitted.".toList)

def assertAllowedHttp (url : URL) (allowInsecure fleetInternal : Bool) : Except Text Unit :=
  if fleetInternal && isInClusterHostname url.hostname then pure ()
  else if allowInsecure && isLocalhostHostname url.hostname then pure ()
  else throw (insecureProtocolMessage url)

def assertAllowedProtocol (url : URL) (allowInsecure fleetInternal : Bool) : Except Text Unit :=
  if url.protocol = https then pure ()
  else if url.protocol = http then assertAllowedHttp url allowInsecure fleetInternal
  else throw ("Remote connector URL uses unsupported protocol: ".toList ++ url.protocol)

def allowInsecure (opts : Option ConnectorOptions) : Bool := (opts.bind (·.allowInsecure)).getD false

def fleetInternal (opts : Option ConnectorOptions) : Bool := (opts.bind (·.fleetInternal)).getD false

def validateConnectorUrl (url : URL) (opts : Option ConnectorOptions) : Except Text Unit := do
  assertNoEmbeddedCredentials url
  assertNotPrivateAddress url
  assertAllowedProtocol url (allowInsecure opts) (fleetInternal opts)

/-- The blocks of addresses that no connector may name. -/
def reservedIpv4 (address : Ipv4) : Bool :=
  [((⟨0, 0, 0, 0⟩ : Ipv4), 8), (⟨10, 0, 0, 0⟩, 8), (⟨127, 0, 0, 0⟩, 8), (⟨169, 254, 0, 0⟩, 16), (⟨172, 16, 0, 0⟩, 12),
    (⟨192, 168, 0, 0⟩, 16)].any fun block => block.1.inBlock block.2 address

def unspecified : Ipv6 := ⟨0, 0, 0, 0, 0, 0, 0, 0⟩

def loopback : Ipv6 := ⟨0, 0, 0, 0, 0, 0, 0, 1⟩

def uniqueLocal (address : Ipv6) : Bool := (⟨0xfc00, 0, 0, 0, 0, 0, 0, 0⟩ : Ipv6).inBlock 7 address

def linkLocal (address : Ipv6) : Bool := (⟨0xfe80, 0, 0, 0, 0, 0, 0, 0⟩ : Ipv6).inBlock 10 address

/-- A mapped address counts as the address it holds. -/
def reserved : Host → Bool
  | .ipv4 address => reservedIpv4 address
  | .ipv6 address =>
      match address.mapped? with
      | some inner => reservedIpv4 inner
      | none => address = unspecified || address = loopback || uniqueLocal address || linkLocal address
  | _ => false

/-- The names and loopback literals of the own machine. -/
def localhostName : Host → Bool
  | .domain name => name.text = "localhost".toList
  | .ipv4 address => address = ⟨127, 0, 0, 1⟩
  | .ipv6 address => address = loopback || address.mapped?.any (·.a = 127)
  | .unread _ => false

/-- The names of services inside the cluster. -/
def clusterName : Host → Bool
  | .domain name => ".svc.cluster.local".toList.isSuffixOf name.text || ".svc".toList.isSuffixOf name.text
  | _ => false

/-- Reserved addresses are refused, names are not, and plain http stays inside. -/
structure ExactOnAddresses (url : URL) (opts : Option ConnectorOptions) : Prop where
  throws : url.protocol = https ∨ url.protocol = http → reserved url.host → localhostName url.host = false →
    ∃ message, validateConnectorUrl url opts = .error message
  names : url.protocol = https → ∀ name, url.host = .domain name → name.text ∉ metadataHostnames →
    validateConnectorUrl url opts = .ok ()
  plain : url.protocol = http → validateConnectorUrl url opts = .ok () →
    fleetInternal opts ∧ clusterName url.host ∨ allowInsecure opts ∧ localhostName url.host

def hasCredentials (url : URL) : Bool := url.username ≠ [] || url.password ≠ []

/-- A name that is spelled like the beginning of a private address. -/
def looksPrivate (name : Text) : Bool :=
  (privateIpv4Patterns.any fun pattern => pattern name) || begins "fc" name || begins "fd" name

/-- The URLs on which the patterns agree with the blocks and the names. -/
def agrees (url : URL) : Bool :=
  url.protocol ≠ https ||
    match url.host with
    | .domain name => metadataHostnames.contains name.text || !hasCredentials url && !looksPrivate name.text
    | .ipv6 address => hasCredentials url || !(address = unspecified || linkLocal address)
    | _ => true

variable {address : Ipv6} {c : Char} {text : Text} {next : Except Text Unit} {p : Prop} {url : URL}
  {host : Host} {name : DomainName}

/-- The characters of an address in six or eight pieces are written in lower case and hold no point. -/
theorem ipv6_plain (member : c ∈ address.text) :
    c.toLower = c ∧ c ≠ '.' ∧ c ≠ '[' ∧ c ≠ 'v' ∧ c ≠ 't' := by
  rcases Ipv6.mem_serializeFrom member with rfl | ⟨digit, small, rfl⟩
  · decide
  · have all : ∀ value ∈ List.range 16, value.digitChar.toLower = value.digitChar ∧ value.digitChar ≠ '.' ∧
        value.digitChar ≠ '[' ∧ value.digitChar ≠ 'v' ∧ value.digitChar ≠ 't' := by decide
    exact all digit (List.mem_range.mpr small)

theorem ipv4_plain {address : Ipv4} (member : c ∈ address.text) :
    c.toLower = c ∧ c ≠ ':' ∧ c ≠ '[' ∧ c ≠ 'v' ∧ c ≠ 't' ∧ c ≠ 'f' := by
  rcases Ipv4.mem_text member with rfl | ⟨digit, small, rfl⟩
  · decide
  · have all : ∀ value ∈ List.range 10, value.digitChar.toLower = value.digitChar ∧ value.digitChar ≠ ':' ∧
        value.digitChar ≠ '[' ∧ value.digitChar ≠ 'v' ∧ value.digitChar ≠ 't' ∧
        value.digitChar ≠ 'f' := by decide
    exact all digit (List.mem_range.mpr small)

theorem toLowerCase_of_mem (lower : ∀ c ∈ text, c.toLower = c) : toLowerCase text = text := by
  rw [toLowerCase, List.map_congr_left lower, List.map_id']

theorem bareHostname_plain (plain : '[' ∉ text) : bareHostname text = text := by
  refine if_neg fun brackets => plain ?_
  exact List.mem_of_mem_head? brackets.1

/-- The text a host is compared by. -/
def bare (host : Host) : Text := toLowerCase (bareHostname host.hostname)

theorem bare_domain (name : DomainName) : bare (.domain name) = name.text := by
  rw [bare, Host.hostname, bareHostname_plain name.plain.2]
  exact name.lower

theorem bare_ipv4 (address : Ipv4) : bare (.ipv4 address) = address.text := by
  rw [bare, Host.hostname, bareHostname_plain fun member => (ipv4_plain member).2.2.1 rfl]
  exact toLowerCase_of_mem fun c member => (ipv4_plain member).1

theorem bare_ipv6 (address : Ipv6) : bare (.ipv6 address) = address.text := by
  have inner : bareHostname (Host.ipv6 address).hostname = address.text := by
    have last : ('[' :: (address.text ++ [']'])).getLast? = some ']' := by
      rw [← List.cons_append, List.getLast?_concat]
    rw [bareHostname, Host.hostname, if_pos ⟨rfl, last⟩, List.tail_cons, List.dropLast_concat]
  rw [bare, inner]
  exact toLowerCase_of_mem fun c member => (ipv6_plain member).1

theorem extract_plain (plain : ':' ∉ text) : extractMappedIpv4 text = none := by
  simp [extractMappedIpv4, mappedDotted, mappedHex, List.splitOn_eq_singleton plain]

theorem isHexGroup_hex (piece : Fin 65536) : isHexGroup (hex piece) = true := by
  have few : (hex piece).length ≤ 4 := (Nat.length_toDigits_le_iff (by decide) (by decide)).mpr piece.isLt
  have digits : (hex piece).all (fun c => (hexDigit? c).isSome) = true := by
    refine List.all_eq_true.mpr fun c member => ?_
    obtain ⟨digit, small, rfl⟩ := mem_toDigits (by decide) member
    rw [hexDigit?_digitChar small]
    rfl
  have filled : 1 ≤ (hex piece).length := Nat.length_toDigits_pos
  simp [isHexGroup, few, filled, digits]

/-- An address without points has no dotted form. -/
theorem mappedDotted_ipv6 (address : Ipv6) : mappedDotted address.text = none := by
  unfold mappedDotted
  split
  · rename_i mark quad parts
    have whole : [':'].intercalate (address.text.splitOn ':') = address.text := List.intercalate_splitOn ':'
    rw [parts] at whole
    have plain : '.' ∉ quad := by
      intro point
      have member : '.' ∈ address.text := by
        rw [← whole]
        simp [List.intercalate_cons_cons, point]
      exact (ipv6_plain member).2.1 rfl
    rw [List.splitOn_eq_singleton plain]
    simp
  · rfl

theorem isHexGroup_plain {row : Text} (group : isHexGroup row = true) : ':' ∉ row := by
  intro colon
  simp only [isHexGroup, Bool.and_eq_true, List.all_eq_true] at group
  exact absurd (group.2 ':' colon) (by decide)

/-- Only a mapped address is written with the mark behind a gap. -/
theorem mapped_of_parts {mark high low : Text} (parts : address.text.splitOn ':' = [[], [], mark, high, low])
    (marked : (toLowerCase mark = "ffff".toList && isHexGroup high && isHexGroup low) = true) :
    address.mapped?.isSome = true := by
  have whole : [':'].intercalate (address.text.splitOn ':') = address.text := List.intercalate_splitOn ':'
  rw [parts, List.intercalate_cons_cons, List.intercalate_cons_cons] at whole
  simp only [Bool.and_eq_true, decide_eq_true_eq] at marked
  have lower : toLowerCase mark = mark := by
    refine toLowerCase_of_mem fun c member => ?_
    have inside : c ∈ address.text := by
      rw [← whole, List.intercalate_cons_cons]
      simp [member]
    exact (ipv6_plain inside).1
  have ones : mark = "ffff".toList := lower ▸ marked.1.1
  have plain : ∀ row ∈ [mark, high, low], ':' ∉ row := by
    simp only [List.forall_mem_cons]
    exact ⟨ones ▸ by decide, isHexGroup_plain marked.1.2, isHexGroup_plain marked.2, by simp⟩
  exact (Ipv6.mapped_of_text (ones ▸ by decide) plain whole.symm).1

/-- The address that is held is found exactly where there is one. -/
theorem extract_ipv6 (address : Ipv6) : extractMappedIpv4 address.text = address.mapped?.map Ipv4.text := by
  rw [extractMappedIpv4, mappedDotted_ipv6]
  cases mapped : address.mapped? with
  | none =>
      have none : mappedHex address.text = none := by
        unfold mappedHex
        split
        · rename_i mark high low parts
          split
          · rename_i marked
            exact absurd (mapped_of_parts parts marked) (by simp [mapped])
          · rfl
        · rfl
      rw [none]
      rfl
  | some inner =>
      have parts : address.text.splitOn ':' = [[], [], "ffff".toList, hex address.p6, hex address.p7] := by
        have rows : ∀ row ∈ [[], [], "ffff".toList, hex address.p6, hex address.p7], ':' ∉ row := by
          simp only [List.forall_mem_cons]
          exact ⟨by simp, by simp, by decide, colon_not_mem_hex _, colon_not_mem_hex _, by simp⟩
        rw [← List.splitOn_intercalate ':' rows (by simp), Ipv6.text_of_mapped mapped]
        simp [List.intercalate_cons_cons]
      have form : mappedHex address.text = some (hex address.p6, hex address.p7) := by
        simp [mappedHex, parts, isHexGroup_hex]
        decide
      rw [Ipv6.mapped?] at mapped
      split at mapped
      · cases mapped
        rw [form]
        simp only [ofHex_hex]
        rfl
      · cases mapped

theorem point_not_mem_decimal (value : Nat) : '.' ∉ decimal value := by
  intro member
  obtain ⟨digit, small, same⟩ := mem_toDigits (by decide) member
  exact (digitChar_plain (Nat.lt_trans small (by decide))).1 same.symm

/-- A first byte with its point begins no text of another first byte. -/
theorem leads_iff (value byte : Nat) (start rest : Text) :
    (decimal value ++ '.' :: start).isPrefixOf (decimal byte ++ '.' :: rest) =
      (decide (byte = value) && start.isPrefixOf rest) := by
  rw [Bool.eq_iff_iff, List.isPrefixOf_iff_prefix, Bool.and_eq_true, decide_eq_true_eq, List.isPrefixOf_iff_prefix]
  constructor
  · rintro ⟨tail, same⟩
    rw [List.append_assoc, List.cons_append] at same
    have halves := point_split (point_not_mem_decimal value) (point_not_mem_decimal byte) same
    exact ⟨(decimal_inj halves.1).symm, tail, halves.2⟩
  · rintro ⟨rfl, tail, rfl⟩
    exact ⟨tail, by rw [List.append_assoc, List.cons_append]⟩

theorem begins_byte {start : String} {value : Nat} (spelled : start.toList = decimal value ++ ['.'])
    (address : Ipv4) : begins start address.text = decide ((address.a : Nat) = value) := by
  rw [begins, spelled, Ipv4.text, leads_iff, List.isPrefixOf_nil_left, Bool.and_true]

theorem begins_bytes {start : String} {value second : Nat}
    (spelled : start.toList = decimal value ++ '.' :: (decimal second ++ ['.'])) (address : Ipv4) :
    begins start address.text = decide ((address.a : Nat) = value ∧ (address.b : Nat) = second) := by
  rw [begins, spelled, Ipv4.text, leads_iff, leads_iff, List.isPrefixOf_nil_left, Bool.and_true, Bool.decide_and]

/-- The alternatives are the second bytes whose first four bits are those of sixteen. -/
theorem begins_twelve (address : Ipv4) :
    beginsTwelve address.text = decide ((address.a : Nat) = 172 ∧ (address.b : Nat) / 16 = 1) := by
  have rows : ["16", "17", "18", "19", "20", "21", "22", "23", "24", "25", "26", "27", "28", "29", "30", "31"] =
      (List.range' 16 16).map Nat.repr := by decide
  have row (second : Nat) : begins ("172." ++ second.repr ++ ".") address.text =
      decide ((address.a : Nat) = 172 ∧ (address.b : Nat) = second) := by
    apply begins_bytes
    simp only [String.toList_append, Nat.toList_repr, List.append_assoc]
    rfl
  simp only [beginsTwelve, rows, List.any_map, Function.comp_def, row]
  rw [Bool.eq_iff_iff, List.any_eq_true, decide_eq_true_eq]
  constructor
  · rintro ⟨second, member, same⟩
    have range := List.mem_range'_1.mp member
    have bytes := of_decide_eq_true same
    omega
  · intro block
    refine ⟨address.b, List.mem_range'_1.mpr ?_, decide_eq_true ⟨block.1, rfl⟩⟩
    omega

/-- The patterns of four bytes are the blocks of four bytes. -/
theorem patterns_ipv4 (address : Ipv4) :
    (privateIpv4Patterns.any fun pattern => pattern address.text) = reservedIpv4 address := by
  have loopback := @begins_byte "127." 127 (by decide) address
  have ten := @begins_byte "10." 10 (by decide) address
  have homes := @begins_bytes "192.168." 192 168 (by decide) address
  have link := @begins_bytes "169.254." 169 254 (by decide) address
  have zero := @begins_byte "0." 0 (by decide) address
  rw [Bool.eq_iff_iff]
  simp only [privateIpv4Patterns, reservedIpv4, List.any_cons, List.any_nil, loopback, ten, begins_twelve, homes, link,
    zero, Ipv4.inBlock_eight, Ipv4.inBlock_twelve, Ipv4.inBlock_sixteen, Fin.ext_iff, Bool.or_eq_true,
    decide_eq_true_eq, Bool.false_eq_true, or_false]
  show _ ↔ (address.a : Nat) = 0 ∨ (address.a : Nat) = 10 ∨ (address.a : Nat) = 127 ∨
    ((address.a : Nat) = 169 ∧ (address.b : Nat) = 254) ∨ ((address.a : Nat) = 172 ∧ (address.b : Nat) / 16 = 1) ∨
    (address.a : Nat) = 192 ∧ (address.b : Nat) = 168
  omega

/-- The four bytes of the own machine. -/
theorem begins_loopback (address : Ipv4) : begins "127." address.text = decide (address.a = 127) := by
  rw [@begins_byte "127." 127 (by decide), decide_eq_decide, Fin.ext_iff]
  rfl

theorem text_ipv4_inj {address other : Ipv4} (same : address.text = other.text) : address = other := by
  obtain ⟨first, same⟩ := point_split (point_not_mem_decimal _) (point_not_mem_decimal _) same
  obtain ⟨second, same⟩ := point_split (point_not_mem_decimal _) (point_not_mem_decimal _) same
  obtain ⟨third, last⟩ := point_split (point_not_mem_decimal _) (point_not_mem_decimal _) same
  cases address
  cases other
  simp only [Ipv4.mk.injEq, Fin.ext_iff]
  exact ⟨decimal_inj first, decimal_inj second, decimal_inj third, decimal_inj last⟩

/-- Every metadata name holds a letter that no address holds. -/
theorem not_metadata {text : Text} (plain : 't' ∉ text) : metadataHostnames.contains text = false := by
  rw [Bool.eq_false_iff, Ne, List.contains_iff_mem]
  intro member
  simp only [metadataHostnames, List.mem_cons, List.not_mem_nil, or_false] at member
  rcases member with rfl | rfl | rfl <;> exact plain (by decide)

/-- A text does not begin with a start that holds another character. -/
theorem begins_other {start : String} {text : Text} {c : Char} (inside : c ∈ start.toList) (plain : c ∉ text) :
    begins start text = false := by
  rw [begins, Bool.eq_false_iff, Ne, List.isPrefixOf_iff_prefix]
  exact fun front => plain (front.subset inside)

theorem ends_other {tail : String} {text : Text} {c : Char} (inside : c ∈ tail.toList) (plain : c ∉ text) :
    tail.toList.isSuffixOf text = false := by
  rw [Bool.eq_false_iff, Ne, List.isSuffixOf_iff_suffix]
  exact fun back => plain (back.subset inside)

theorem private_domain (name : DomainName) : isPrivateHostname (Host.domain name).hostname =
    (metadataHostnames.contains name.text || looksPrivate name.text) := by
  have other {text : Text} (inside : ':' ∈ text) : name.text ≠ text := fun same => name.plain.1 (same ▸ inside)
  have text : toLowerCase (bareHostname (Host.domain name).hostname) = name.text := bare_domain name
  simp only [isPrivateHostname, text, extract_plain name.plain.1, looksPrivate, privateIpv6Patterns, List.any_cons,
    List.any_nil, Bool.or_false, @other "::1".toList (by decide), @other "[::1]".toList (by decide),
    @begins_other "[fc" name.text '[' (by decide) name.plain.2,
    @begins_other "[fd" name.text '[' (by decide) name.plain.2]
  cases metadataHostnames.contains name.text <;> cases privateIpv4Patterns.any fun pattern => pattern name.text <;>
    simp

theorem private_ipv4 (address : Ipv4) :
    isPrivateHostname (Host.ipv4 address).hostname = reservedIpv4 address := by
  have text : toLowerCase (bareHostname (Host.ipv4 address).hostname) = address.text := bare_ipv4 address
  have metadata := @not_metadata address.text fun member => (ipv4_plain member).2.2.2.2.1 rfl
  have colon : ':' ∉ address.text := fun member => (ipv4_plain member).2.1 rfl
  have bracket : '[' ∉ address.text := fun member => (ipv4_plain member).2.2.1 rfl
  have letter : 'f' ∉ address.text := fun member => (ipv4_plain member).2.2.2.2.2 rfl
  have other {text : Text} (inside : ':' ∈ text) : address.text ≠ text := fun same => colon (same ▸ inside)
  have pieces : (privateIpv6Patterns.any fun pattern => pattern address.text) = false := by
    simp only [privateIpv6Patterns, List.any_cons, List.any_nil, @other "::1".toList (by decide),
      @other "[::1]".toList (by decide), @begins_other "fc" _ 'f' (by decide) letter,
      @begins_other "fd" _ 'f' (by decide) letter, @begins_other "[fc" _ 'f' (by decide) letter,
      @begins_other "[fd" _ 'f' (by decide) letter, decide_false, Bool.or_false]
  simp only [isPrivateHostname, text, metadata, extract_plain colon, patterns_ipv4, pieces]
  cases reservedIpv4 address <;> rfl

/-- No pattern of four bytes has an address of eight pieces. -/
theorem patterns_ipv6 (address : Ipv6) :
    (privateIpv4Patterns.any fun pattern => pattern address.text) = false := by
  have point : '.' ∉ address.text := fun member => (ipv6_plain member).2.1 rfl
  have twelve : beginsTwelve address.text = false := by
    rw [beginsTwelve, List.any_eq_false]
    intro second _
    rw [Bool.not_eq_true]
    exact begins_other (c := '.') (by simp [String.toList_append]) point
  simp only [privateIpv4Patterns, List.any_cons, List.any_nil, twelve, @begins_other "127." _ '.' (by decide) point,
    @begins_other "10." _ '.' (by decide) point, @begins_other "192.168." _ '.' (by decide) point,
    @begins_other "169.254." _ '.' (by decide) point, @begins_other "0." _ '.' (by decide) point, Bool.or_false]

theorem private_ipv6 (address : Ipv6) : isPrivateHostname (Host.ipv6 address).hostname =
    match address.mapped? with
    | some inner => reservedIpv4 inner
    | none => address.text = "::1".toList || begins "fc" address.text || begins "fd" address.text := by
  have text : toLowerCase (bareHostname (Host.ipv6 address).hostname) = address.text := bare_ipv6 address
  have metadata := @not_metadata address.text fun member => (ipv6_plain member).2.2.2.2 rfl
  have bracket : '[' ∉ address.text := fun member => (ipv6_plain member).2.2.1 rfl
  have other : address.text ≠ "[::1]".toList := fun same => bracket (same ▸ by decide)
  simp only [isPrivateHostname, text, metadata, extract_ipv6, patterns_ipv6]
  cases address.mapped? with
  | some inner => exact patterns_ipv4 inner
  | none =>
      simp only [privateIpv6Patterns, List.any_cons, List.any_nil, other, Option.map_none,
        @begins_other "[fc" _ '[' (by decide) bracket, @begins_other "[fd" _ '[' (by decide) bracket]
      simp [Bool.or_assoc]

theorem localhost_iff {hostname : Text} (lower : toLowerCase (bareHostname hostname) = text) :
    isLocalhostHostname hostname = true ↔ text = "localhost".toList ∨ text = "127.0.0.1".toList ∨
      text = "::1".toList ∨ text = "[::1]".toList ∨ (extractMappedIpv4 text).any (begins "127.") = true := by
  unfold isLocalhostHostname
  dsimp only
  rw [lower, Bool.if_true_left, Bool.decide_eq_true]
  simp only [Bool.or_eq_true, decide_eq_true_eq, or_assoc]

theorem localhost_domain (name : DomainName) :
    isLocalhostHostname (Host.domain name).hostname = localhostName (.domain name) := by
  have number : name.text ≠ "127.0.0.1".toList := fun same => by
    have named := name.named
    rw [same] at named
    exact absurd named (by decide)
  have other {text : Text} (inside : ':' ∈ text) : name.text ≠ text := fun same => name.plain.1 (same ▸ inside)
  rw [Bool.eq_iff_iff, localhost_iff (bare_domain name), extract_plain name.plain.1, localhostName, decide_eq_true_eq]
  constructor
  · rintro (same | same | same | same | held)
    · exact same
    · exact absurd same number
    · exact absurd same (other (by decide))
    · exact absurd same (other (by decide))
    · cases held
  · exact .inl

theorem localhost_ipv4 (address : Ipv4) :
    isLocalhostHostname (Host.ipv4 address).hostname = localhostName (.ipv4 address) := by
  have colon : ':' ∉ address.text := fun member => (ipv4_plain member).2.1 rfl
  have letter : 't' ∉ address.text := fun member => (ipv4_plain member).2.2.2.2.1 rfl
  rw [Bool.eq_iff_iff, localhost_iff (bare_ipv4 address), extract_plain colon, localhostName, decide_eq_true_eq]
  constructor
  · rintro (same | same | same | same | held)
    · exact absurd (same ▸ by decide) letter
    · exact text_ipv4_inj (same.trans (by decide))
    · exact absurd (same ▸ by decide) colon
    · exact absurd (same ▸ by decide) colon
    · cases held
  · rintro rfl
    exact .inr (.inl (by decide))

theorem localhost_ipv6 (address : Ipv6) :
    isLocalhostHostname (Host.ipv6 address).hostname = localhostName (.ipv6 address) := by
  have letter : 't' ∉ address.text := fun member => (ipv6_plain member).2.2.2.2 rfl
  have point : '.' ∉ address.text := fun member => (ipv6_plain member).2.1 rfl
  have bracket : '[' ∉ address.text := fun member => (ipv6_plain member).2.2.1 rfl
  have held : (extractMappedIpv4 address.text).any (begins "127.") = address.mapped?.any (·.a = 127) := by
    rw [extract_ipv6, Option.any_map]
    exact congrArg (Option.any · _) (funext begins_loopback)
  rw [Bool.eq_iff_iff, localhost_iff (bare_ipv6 address), held, localhostName, Bool.or_eq_true, decide_eq_true_eq]
  constructor
  · rintro (same | same | same | same | held)
    · exact absurd (same ▸ by decide) letter
    · exact absurd (same ▸ by decide) point
    · exact .inl (Ipv6.loopback_of_text same)
    · exact absurd (same ▸ by decide) bracket
    · exact .inr held
  · rintro (rfl | held)
    · exact .inr (.inr (.inl (by decide)))
    · exact .inr (.inr (.inr (.inr held)))

/-- The own machine is known by its names and literals. -/
theorem localhost_host (host : Host) (read : ∀ text, host ≠ .unread text) :
    isLocalhostHostname host.hostname = localhostName host := by
  cases host with
  | domain name => exact localhost_domain name
  | ipv4 address => exact localhost_ipv4 address
  | ipv6 address => exact localhost_ipv6 address
  | unread text => exact absurd rfl (read text)

theorem cluster_host (host : Host) (read : ∀ text, host ≠ .unread text) :
    isInClusterHostname host.hostname = clusterName host := by
  cases host with
  | domain name =>
      have text : toLowerCase (bareHostname (Host.domain name).hostname) = name.text := bare_domain name
      simp only [isInClusterHostname, clusterName, text]
  | ipv4 address =>
      have text : toLowerCase (bareHostname (Host.ipv4 address).hostname) = address.text := bare_ipv4 address
      have letter : 'v' ∉ address.text := fun member => (ipv4_plain member).2.2.2.1 rfl
      simp only [isInClusterHostname, clusterName, text, @ends_other ".svc.cluster.local" _ 'v' (by decide) letter,
        @ends_other ".svc" _ 'v' (by decide) letter, Bool.or_false]
  | ipv6 address =>
      have text : toLowerCase (bareHostname (Host.ipv6 address).hostname) = address.text := bare_ipv6 address
      have letter : 'v' ∉ address.text := fun member => (ipv6_plain member).2.2.2.1 rfl
      simp only [isInClusterHostname, clusterName, text, @ends_other ".svc.cluster.local" _ 'v' (by decide) letter,
        @ends_other ".svc" _ 'v' (by decide) letter, Bool.or_false]
  | unread text => exact absurd rfl (read text)

theorem andThen_ok_iff {first second : Except Text Unit} :
    (first >>= fun _ => second) = .ok () ↔ first = .ok () ∧ second = .ok () := by
  cases first with
  | error message => simp [bind, Except.bind]
  | ok value => simp [bind, Except.bind]

theorem throw_if_ok_iff [Decidable p] {message : Text} :
    (if p then throw message else next) = .ok () ↔ ¬ p ∧ next = .ok () := by
  split
  · rename_i held
    exact ⟨fun same => (by cases same), fun both => absurd held both.1⟩
  · rename_i free
    exact ⟨fun same => ⟨free, same⟩, fun both => both.2⟩

theorem pass_if_ok_iff [Decidable p] :
    (if p then pure () else next) = .ok () ↔ p ∨ next = .ok () := by
  split
  · rename_i held
    exact ⟨fun _ => .inl held, fun _ => rfl⟩
  · rename_i free
    exact ⟨.inr, fun either => either.resolve_left free⟩

theorem assertNoEmbeddedCredentials_ok (url : URL) :
    assertNoEmbeddedCredentials url = .ok () ↔ hasCredentials url = false := by
  rw [assertNoEmbeddedCredentials, throw_if_ok_iff, hasCredentials, ← Bool.decide_or, decide_eq_false_iff_not]
  exact ⟨fun both => both.1, fun free => ⟨free, rfl⟩⟩

theorem assertNotPrivateAddress_ok (url : URL) : assertNotPrivateAddress url = .ok () ↔
    (isPrivateHostname url.hostname = true → isLocalhostHostname url.hostname = true) := by
  rw [assertNotPrivateAddress, throw_if_ok_iff]
  cases isPrivateHostname url.hostname <;> cases isLocalhostHostname url.hostname <;> simp [pure, Except.pure]

theorem assertAllowedHttp_ok (url : URL) (insecure fleet : Bool) : assertAllowedHttp url insecure fleet = .ok () ↔
    fleet = true ∧ isInClusterHostname url.hostname = true ∨
      insecure = true ∧ isLocalhostHostname url.hostname = true := by
  rw [assertAllowedHttp, pass_if_ok_iff, pass_if_ok_iff, Bool.and_eq_true, Bool.and_eq_true]
  simp [throw, throwThe, MonadExceptOf.throw]

theorem assertAllowedProtocol_ok (url : URL) (insecure fleet : Bool) :
    assertAllowedProtocol url insecure fleet = .ok () ↔
      url.protocol = https ∨ url.protocol = http ∧ assertAllowedHttp url insecure fleet = .ok () := by
  rw [assertAllowedProtocol, pass_if_ok_iff]
  by_cases web : url.protocol = http
  · rw [if_pos web]
    exact or_congr_right ⟨fun allowed => ⟨web, allowed⟩, fun both => both.2⟩
  · rw [if_neg web]
    exact or_congr_right ⟨fun same => (by cases same), fun both => absurd both.1 web⟩

/-- A URL is accepted when all three checks pass. -/
theorem validate_ok_iff (url : URL) (opts : Option ConnectorOptions) :
    validateConnectorUrl url opts = .ok () ↔ hasCredentials url = false ∧
      (isPrivateHostname url.hostname = true → isLocalhostHostname url.hostname = true) ∧
      (url.protocol = https ∨ url.protocol = http ∧
        (fleetInternal opts = true ∧ isInClusterHostname url.hostname = true ∨
          allowInsecure opts = true ∧ isLocalhostHostname url.hostname = true)) := by
  rw [validateConnectorUrl, andThen_ok_iff, andThen_ok_iff, assertNoEmbeddedCredentials_ok,
    assertNotPrivateAddress_ok, assertAllowedProtocol_ok, assertAllowedHttp_ok]

theorem error_iff {result : Except Text Unit} : (∃ message, result = .error message) ↔ result ≠ .ok () := by
  cases result with
  | error message => simp
  | ok value => simp

theorem mapped_of_first (filled : (address.p0 : Nat) ≠ 0) : address.mapped? = none :=
  if_neg fun zeros => filled (congrArg Fin.val zeros.1)

/-- The patterns catch every unique local address. -/
theorem begins_uniqueLocal (inside : uniqueLocal address = true) :
    address.mapped? = none ∧ (begins "fc" address.text || begins "fd" address.text) = true := by
  rw [uniqueLocal, Ipv6.inBlock_first _ _ (by decide), decide_eq_true_eq] at inside
  have block : (address.p0 : Nat) / 512 = 126 := inside
  have unmapped := mapped_of_first (show (address.p0 : Nat) ≠ 0 by omega)
  obtain ⟨rest, text⟩ := Ipv6.text_of_first address (by omega)
  rw [hex_four (by omega) address.p0.isLt] at text
  have first : (address.p0 : Nat) / 4096 = 15 := by omega
  have second : (address.p0 : Nat) / 256 % 16 = 12 ∨ (address.p0 : Nat) / 256 % 16 = 13 := by omega
  refine ⟨unmapped, ?_⟩
  rcases second with second | second <;> rw [text, first, second] <;> rfl

/-- No pattern knows a link local address. -/
theorem begins_linkLocal (inside : linkLocal address = true) :
    address.mapped? = none ∧ address.text ≠ "::1".toList ∧
      (begins "fc" address.text || begins "fd" address.text) = false := by
  rw [linkLocal, Ipv6.inBlock_first _ _ (by decide), decide_eq_true_eq] at inside
  have block : (address.p0 : Nat) / 64 = 1018 := inside
  have unmapped := mapped_of_first (show (address.p0 : Nat) ≠ 0 by omega)
  obtain ⟨rest, text⟩ := Ipv6.text_of_first address (by omega)
  rw [hex_four (by omega) address.p0.isLt] at text
  have first : (address.p0 : Nat) / 4096 = 15 := by omega
  have second : (address.p0 : Nat) / 256 % 16 = 14 := by omega
  rw [first, second] at text
  refine ⟨unmapped, fun same => ?_, by rw [text]; rfl⟩
  rw [text] at same
  exact absurd (List.cons.inj same).1 (by decide)

/-- Over https only the credentials and the host count. -/
theorem https_ok_iff (secure : url.protocol = https) (opts : Option ConnectorOptions) :
    validateConnectorUrl url opts = .ok () ↔ hasCredentials url = false ∧
      (isPrivateHostname url.host.hostname = true → localhostName url.host = true) := by
  rw [validate_ok_iff, URL.hostname, localhost_host url.host (url.special (.inl secure))]
  exact ⟨fun all => ⟨all.1, all.2.1⟩, fun both => ⟨both.1, both.2, .inl secure⟩⟩

/-- Plain http is only accepted where an option allows it. -/
theorem http_ok (insecure : url.protocol = http) {opts : Option ConnectorOptions}
    (ok : validateConnectorUrl url opts = .ok ()) :
    fleetInternal opts ∧ clusterName url.host ∨ allowInsecure opts ∧ localhostName url.host := by
  have apart : http ≠ https := by decide
  have allowed := ((validate_ok_iff url opts).mp ok).2.2.resolve_left fun secure => apart (insecure.symm.trans secure)
  rw [URL.hostname, localhost_host url.host (url.special (.inr insecure)),
    cluster_host url.host (url.special (.inr insecure))] at allowed
  exact allowed.2

theorem reserved_not_cluster (inside : reserved host = true) : clusterName host = false := by
  cases host with
  | domain name => cases inside
  | ipv4 address => rfl
  | ipv6 address => rfl
  | unread text => rfl

/-- A name such as localhost looks like no private address. -/
theorem looksPrivate_not_localhost (localhost : localhostName (.domain name) = true) :
    looksPrivate name.text = false := by
  rw [localhostName, decide_eq_true_eq] at localhost
  rw [localhost]
  decide

/-- The addresses that no pattern knows. -/
theorem private_missed (missed : address = unspecified ∨ linkLocal address = true) :
    reserved (.ipv6 address) = true ∧ localhostName (.ipv6 address) = false ∧
      isPrivateHostname (Host.ipv6 address).hostname = false := by
  rcases missed with rfl | inside
  · rw [private_ipv6]
    decide
  · obtain ⟨unmapped, other, patterns⟩ := begins_linkLocal inside
    have apart : address ≠ loopback := fun same => other (same ▸ by decide)
    refine ⟨?_, ?_, ?_⟩
    · simp only [reserved, unmapped, inside, Bool.or_true]
    · simp only [localhostName, unmapped, apart, decide_false, Option.any_none, Bool.or_false]
    · rw [private_ipv6, unmapped]
      dsimp only
      rw [decide_eq_false other, Bool.false_or, patterns]

/-- The patterns catch every other reserved address. -/
theorem private_reserved (inside : reserved host = true) (away : localhostName host = false)
    (known : ∀ address, host = .ipv6 address → ¬ (address = unspecified ∨ linkLocal address = true)) :
    isPrivateHostname host.hostname = true := by
  cases host with
  | domain name => cases inside
  | unread text => cases inside
  | ipv4 address => exact (private_ipv4 address).trans inside
  | ipv6 address =>
      rw [private_ipv6]
      rw [reserved] at inside
      cases mapped : address.mapped? with
      | some inner =>
          rw [mapped] at inside
          exact inside
      | none =>
          rw [mapped] at inside
          dsimp only at inside ⊢
          simp only [Bool.or_eq_true, decide_eq_true_eq] at inside
          rcases inside with ((none | own) | unique) | link
          · exact absurd (.inl none) (known address rfl)
          · rw [localhostName, decide_eq_true own, Bool.true_or] at away
            cases away
          · rw [Bool.or_assoc, (begins_uniqueLocal unique).2, Bool.or_true]
          · exact absurd (.inr link) (known address rfl)

theorem agrees_domain (secure : url.protocol = https) (host : url.host = .domain name) : agrees url = true ↔
      name.text ∈ metadataHostnames ∨ hasCredentials url = false ∧ looksPrivate name.text = false := by
  simp only [agrees, host, secure, ne_eq, not_true_eq_false, decide_false, Bool.false_or, Bool.or_eq_true,
    Bool.and_eq_true, List.contains_iff_mem, Bool.not_eq_true']

theorem agrees_ipv6 (secure : url.protocol = https) (host : url.host = .ipv6 address) :
    agrees url = true ↔
      (hasCredentials url = false → ¬ (address = unspecified ∨ linkLocal address = true)) := by
  simp only [agrees, host, secure, ne_eq, not_true_eq_false, decide_false, Bool.false_or, Bool.or_eq_true,
    Bool.not_eq_true']
  rw [← Bool.not_eq_true (decide _ || _), Bool.or_eq_true, decide_eq_true_eq]
  cases hasCredentials url <;> simp

/-- A name that is not listed is accepted when it looks like no private address. -/
theorem domain_ok_iff (secure : url.protocol = https) (host : url.host = .domain name)
    (unlisted : name.text ∉ metadataHostnames) (opts : Option ConnectorOptions) :
    validateConnectorUrl url opts = .ok () ↔ hasCredentials url = false ∧ looksPrivate name.text = false := by
  have contained : metadataHostnames.contains name.text = false := by
    rw [Bool.eq_false_iff]
    exact fun listed => unlisted (List.contains_iff_mem.mp listed)
  rw [https_ok_iff secure, host, private_domain, contained, Bool.false_or]
  refine and_congr_right fun _ => ⟨fun kept => ?_, fun free kept => by rw [free] at kept; cases kept⟩
  cases looks : looksPrivate name.text with
  | false => rfl
  | true => exact looks.symm.trans (looksPrivate_not_localhost (kept looks))

/-- The checks are exact where no reserved address is missed and no name looks like a private address. -/
theorem exact_iff_agrees (url : URL) (opts : Option ConnectorOptions) :
    ExactOnAddresses url opts ↔ agrees url = true := by
  constructor
  · intro claimed
    by_cases secure : url.protocol = https
    · cases host : url.host with
      | ipv4 address => simp [agrees, host]
      | unread text => simp [agrees, host]
      | domain name =>
          refine (agrees_domain secure host).mpr ?_
          by_cases listed : name.text ∈ metadataHostnames
          · exact .inl listed
          · exact .inr ((domain_ok_iff secure host listed opts).mp (claimed.names secure name host listed))
      | ipv6 address =>
          refine (agrees_ipv6 secure host).mpr fun clean missed => ?_
          obtain ⟨inside, away, unknown⟩ := private_missed missed
          rw [← host] at inside away unknown
          refine error_iff.mp (claimed.throws (.inl secure) inside away) ((https_ok_iff secure opts).mpr ⟨clean, ?_⟩)
          intro known
          rw [unknown] at known
          cases known
    · simp [agrees, secure]
  · intro good
    refine ⟨fun web inside away => error_iff.mpr fun ok => ?_, fun secure name host unlisted => ?_,
      fun insecure ok => http_ok insecure ok⟩
    · rcases web with secure | insecure
      · obtain ⟨clean, kept⟩ := (https_ok_iff secure opts).mp ok
        have known : isPrivateHostname url.host.hostname = true :=
          private_reserved inside away fun address host => (agrees_ipv6 secure host).mp good clean
        rw [kept known] at away
        cases away
      · rcases http_ok insecure ok with ⟨-, cluster⟩ | ⟨-, localhost⟩
        · rw [reserved_not_cluster inside] at cluster
          cases cluster
        · rw [localhost] at away
          cases away
    · rcases (agrees_domain secure host).mp good with listed | free
      · exact absurd listed unlisted
      · exact (domain_ok_iff secure host unlisted opts).mpr free

/-- A public name that begins like a unique local address. -/
def agencyName : DomainName where
  text := "fcc.gov".toList
  lower := by decide
  plain := by decide
  named := by decide

def agencyUrl : URL where
  protocol := https
  username := []
  password := []
  host := .domain agencyName
  href := "https://fcc.gov/".toList
  special := nofun

/-- The public name is refused although it names no address. -/
theorem public_name_is_refused : ¬ ∀ url opts, ExactOnAddresses url opts := by
  intro claimed
  have unlisted : agencyName.text ∉ metadataHostnames := by decide
  have ok := (claimed agencyUrl none).names rfl agencyName rfl unlisted
  exact absurd ((domain_ok_iff rfl rfl unlisted none).mp ok).2 (by decide)

end NimbleBrain.Connectors
