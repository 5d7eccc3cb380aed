import NimbleBrain.Library.Base64
import NimbleBrain.Library.Utf8

/- A secret is stored as one line of ciphertext. A value that is read has no other spelling. -/

namespace NimbleBrain.Credentials

open Library

def saltBytes : Nat := 16
def ivBytes : Nat := 12
def kidBytes : Nat := 8
def tagBytes : Nat := 16

def magic : Utf16 := Utf16.ofString "NBS1"

def dot : UInt16 := 46

def isHex (unit : UInt16) : Bool := (48 ≤ unit && unit ≤ 57) || (97 ≤ unit && unit ≤ 102)

/-- The fields of a sealed value. -/
structure SealedValue where
  kid : Utf16
  salt : List UInt8
  iv : List UInt8
  ciphertext : List UInt8
  deriving DecidableEq

/-- One or more units of the alphabet. -/
def isField (text : Utf16) : Bool := !text.isEmpty && text.all Base64.isWord

/-- No class of the grammar holds a dot, so the five parts between the dots are matched one by one. -/
def sealedValueParts (raw : Utf16) : Option (Utf16 × Utf16 × Utf16 × Utf16) :=
  match raw.splitOn dot with
  | [front, kid, salt, iv, ciphertext] =>
      if front = magic && kid.length = 2 * kidBytes && kid.all isHex && isField salt && isField iv && isField ciphertext
      then some (kid, salt, iv, ciphertext)
      else none
  | _ => none

def parseSealedValue (raw : Utf16) : Option SealedValue :=
  match sealedValueParts raw with
  | none => none
  | some (kid, salt, iv, ciphertext) =>
      let decoded : SealedValue := ⟨kid, Base64.decode salt, Base64.decode iv, Base64.decode ciphertext⟩
      if decoded.salt.length ≠ saltBytes || decoded.iv.length ≠ ivBytes then none
      else if decoded.ciphertext.length < tagBytes then none
      else if Base64.encode decoded.salt ≠ salt || Base64.encode decoded.iv ≠ iv ||
          Base64.encode decoded.ciphertext ≠ ciphertext then none
      else some decoded

/-- The line that `seal` writes. -/
def SealedValue.line (value : SealedValue) : Utf16 :=
  List.intercalate [dot]
    [magic, value.kid, Base64.encode value.salt, Base64.encode value.iv, Base64.encode value.ciphertext]

def hexDigit (value : Nat) : UInt16 := UInt16.ofNat (if value < 10 then 48 + value else 87 + value)

def hex (bytes : List UInt8) : Utf16 :=
  bytes.flatMap fun byte => [hexDigit (byte.toNat / 16), hexDigit (byte.toNat % 16)]

/-- The ciphers of the host. A MAC has 32 bytes and a tag 16. -/
structure Ciphers where
  hmacSha256 : List UInt8 → List UInt8 → List UInt8
  hkdfSha256 : List UInt8 → List UInt8 → List UInt8 → List UInt8
  encrypt : List UInt8 → List UInt8 → List UInt8 → List UInt8 → List UInt8
  authTag : List UInt8 → List UInt8 → List UInt8 → List UInt8 → List UInt8
  hmacSha256_length : ∀ key text, (hmacSha256 key text).length = 32
  authTag_length : ∀ dek iv info text, (authTag dek iv info text).length = tagBytes

def sealInfo : Utf16 := Utf16.ofString "nimblebrain/credential-store/v1"

def kidFor (ciphers : Ciphers) (ringKey : List UInt8) : Utf16 :=
  hex ((ciphers.hmacSha256 ringKey (Utf8.write (sealInfo ++ Utf16.ofString "|kid"))).take kidBytes)

def infoFor (scopeLabel key : Utf16) : List UInt8 :=
  Utf8.write (sealInfo ++ Utf16.ofString "|" ++ scopeLabel ++ Utf16.ofString "|" ++ key)

/-- The salt and the initialization vector are fresh random bytes. -/
def sealedValue (ciphers : Ciphers) (sealingKey salt iv : List UInt8) (scopeLabel key value : Utf16) : SealedValue :=
  let info := infoFor scopeLabel key
  let dek := ciphers.hkdfSha256 sealingKey salt info
  let text := Utf8.write value
  ⟨kidFor ciphers sealingKey, salt, iv, ciphers.encrypt dek iv info text ++ ciphers.authTag dek iv info text⟩

/-- This is the `seal` of the code, whose name is a word of the language here. -/
def sealText (ciphers : Ciphers) (sealingKey salt iv : List UInt8) (scopeLabel key value : Utf16) : Utf16 :=
  (sealedValue ciphers sealingKey salt iv scopeLabel key value).line

/-- The fields that a seal can have. -/
structure Sealable extends SealedValue where
  kid_length : kid.length = 2 * kidBytes
  kid_hex : ∀ unit ∈ kid, isHex unit = true
  salt_length : salt.length = saltBytes
  iv_length : iv.length = ivBytes
  ciphertext_length : tagBytes ≤ ciphertext.length

theorem isHex_hex (bytes : List UInt8) : ∀ unit ∈ hex bytes, isHex unit = true := by
  have digit : ∀ value < 16, isHex (hexDigit value) = true := by decide +kernel
  intro unit member
  obtain ⟨byte, -, listed⟩ := List.mem_flatMap.mp member
  have bound := byte.toNat_lt
  simp only [List.mem_cons, List.not_mem_nil, or_false] at listed
  rcases listed with rfl | rfl
  · exact digit _ (by omega)
  · exact digit _ (by omega)

theorem length_hex (bytes : List UInt8) : (hex bytes).length = 2 * bytes.length := by
  induction bytes with
  | nil => rfl
  | cons byte rest ih =>
      rw [hex, List.flatMap_cons, List.length_append, ← hex, ih, List.length_cons, List.length_cons, List.length_cons]
      rw [List.length_nil]
      omega

/-- What is sealed has the fields of a sealed value. -/
def sealable (ciphers : Ciphers) (sealingKey : List UInt8) {salt iv : List UInt8} (salted : salt.length = saltBytes)
    (vector : iv.length = ivBytes) (scopeLabel key value : Utf16) : Sealable where
  toSealedValue := sealedValue ciphers sealingKey salt iv scopeLabel key value
  kid_length := by
    change (hex _).length = _
    rw [length_hex, List.length_take, ciphers.hmacSha256_length]
    rfl
  kid_hex := isHex_hex _
  salt_length := salted
  iv_length := vector
  ciphertext_length := by
    change tagBytes ≤ List.length (_ ++ _)
    rw [List.length_append, ciphers.authTag_length]
    exact Nat.le_add_left _ _

theorem dot_not_mem {text : Utf16} {test : UInt16 → Bool} (passes : ∀ unit ∈ text, test unit = true)
    (free : test dot = false) : dot ∉ text := by
  intro member
  exact Bool.false_ne_true (free.symm.trans (passes dot member))

theorem isField_encode {content : List UInt8} (filled : content ≠ []) : isField (Base64.encode content) = true := by
  rw [isField, Bool.and_eq_true, List.all_eq_true]
  exact ⟨by simpa using Base64.encode_ne_nil filled, Base64.isWord_encode content⟩

/-- The line of a sealed value splits into its fields. -/
theorem sealedValueParts_line (value : Sealable) : sealedValueParts value.line =
    some (value.kid, Base64.encode value.salt, Base64.encode value.iv, Base64.encode value.ciphertext) := by
  have split : value.line.splitOn dot =
      [magic, value.kid, Base64.encode value.salt, Base64.encode value.iv, Base64.encode value.ciphertext] := by
    apply List.splitOn_intercalate dot _ (List.cons_ne_nil _ _)
    simp only [List.forall_mem_cons]
    refine ⟨by decide +kernel, dot_not_mem value.kid_hex (by decide), ?_, ?_, ?_, nofun⟩
    · exact dot_not_mem (Base64.isWord_encode _) (by decide)
    · exact dot_not_mem (Base64.isWord_encode _) (by decide)
    · exact dot_not_mem (Base64.isWord_encode _) (by decide)
  have filled {content : List UInt8} {size : Nat} (long : size + 1 ≤ content.length) : content ≠ [] := by
    rintro rfl
    cases long
  have hexes : value.kid.all isHex = true := List.all_eq_true.mpr value.kid_hex
  rw [sealedValueParts, split]
  simp only [value.kid_length, hexes, isField_encode (filled value.salt_length.ge),
    isField_encode (filled value.iv_length.ge), isField_encode (filled value.ciphertext_length)]
  rfl

theorem parseSealedValue_line (value : Sealable) : parseSealedValue value.line = some value.toSealedValue := by
  have long := value.ciphertext_length
  simp [parseSealedValue, sealedValueParts_line, Base64.decode_encode, value.salt_length, value.iv_length, long]

variable {raw : Utf16}

theorem of_sealedValueParts {kid salt iv ciphertext : Utf16}
    (parts : sealedValueParts raw = some (kid, salt, iv, ciphertext)) :
    raw.splitOn dot = [magic, kid, salt, iv, ciphertext] ∧ kid.length = 2 * kidBytes ∧
      ∀ unit ∈ kid, isHex unit = true := by
  rw [sealedValueParts] at parts
  split at parts
  · next split =>
      split_ifs at parts with fits
      cases parts
      simp only [Bool.and_eq_true, decide_eq_true_eq, List.all_eq_true] at fits
      obtain ⟨⟨⟨⟨⟨front, length⟩, hexes⟩, -⟩, -⟩, -⟩ := fits
      rw [split, front]
      exact ⟨rfl, length, hexes⟩
  · cases parts

/-- A value that is read is that of a line with its fields in this spelling. -/
theorem line_of_parse {read : SealedValue} (parsed : parseSealedValue raw = some read) :
    read.line = raw ∧ ∃ value : Sealable, value.toSealedValue = read := by
  rw [parseSealedValue] at parsed
  split at parsed
  · cases parsed
  · next kid salt iv ciphertext parts =>
      dsimp only at parsed
      split_ifs at parsed with lengths tag spelled
      obtain rfl := Option.some.inj parsed
      simp only [Bool.or_eq_true, decide_eq_true_eq, not_or, not_not] at lengths spelled
      obtain ⟨split, length, hexes⟩ := of_sealedValueParts parts
      refine ⟨?_, ⟨_, length, hexes, lengths.1, lengths.2, not_lt.mp tag⟩, rfl⟩
      rw [SealedValue.line, spelled.1.1, spelled.1.2, spelled.2, ← split]
      exact List.intercalate_splitOn dot

/-- What is sealed reads as its fields. A line that reads is the one of its fields, so that no other reads like it. -/
theorem sealed_values_have_one_spelling (ciphers : Ciphers) (value : Sealable) (raw : Utf16) :
    parseSealedValue value.line = some value.toSealedValue ∧
      (∀ sealingKey salt iv scopeLabel key text, salt.length = saltBytes → iv.length = ivBytes →
        parseSealedValue (sealText ciphers sealingKey salt iv scopeLabel key text) =
          some (sealedValue ciphers sealingKey salt iv scopeLabel key text)) ∧
      (∀ read, parseSealedValue raw = some read →
        read.line = raw ∧ (∃ fields : Sealable, fields.toSealedValue = read) ∧
          ∀ other, other ≠ raw → parseSealedValue other ≠ some read) := by
  refine ⟨parseSealedValue_line value, ?_, ?_⟩
  · intro sealingKey salt iv scopeLabel key text salted vector
    exact parseSealedValue_line (sealable ciphers sealingKey salted vector scopeLabel key text)
  · intro read parsed
    obtain ⟨same, fields⟩ := line_of_parse parsed
    refine ⟨same, fields, fun other different again => different ?_⟩
    exact (line_of_parse again).1.symm.trans same

-- Two texts can decode to the same bytes, so the spelling is compared.
example : Base64.decode (Utf16.ofString "TWF") = Base64.decode (Utf16.ofString "TWE") := by decide +kernel

end NimbleBrain.Credentials
