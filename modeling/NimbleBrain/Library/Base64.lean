import Mathlib.Data.List.TakeWhile
import NimbleBrain.Library.JsonText

/- Bytes are written in the base64 alphabet that is safe in addresses, without padding. -/

namespace NimbleBrain.Library.Base64

/-- The unit of six bits. -/
def unitOf (sextet : Nat) : UInt16 :=
  if sextet < 26 then UInt16.ofNat (65 + sextet)
  else if sextet < 52 then UInt16.ofNat (71 + sextet)
  else if sextet < 62 then UInt16.ofNat (sextet - 4)
  else if sextet = 62 then 45
  else 95

/-- The reader knows the units of both alphabets. -/
def sextetOf (unit : UInt16) : Option Nat :=
  let value := unit.toNat
  if 65 ≤ value ∧ value ≤ 90 then some (value - 65)
  else if 97 ≤ value ∧ value ≤ 122 then some (value - 71)
  else if 48 ≤ value ∧ value ≤ 57 then some (value + 4)
  else if value = 45 ∨ value = 43 then some 62
  else if value = 95 ∨ value = 47 then some 63
  else none

/-- Three bytes are four times six bits. The last bits of a shorter group are zero. -/
def sextets : List UInt8 → List Nat
  | [] => []
  | [first] => [first.toNat / 4, first.toNat % 4 * 16]
  | [first, second] => [first.toNat / 4, first.toNat % 4 * 16 + second.toNat / 16, second.toNat % 16 * 4]
  | first :: second :: third :: rest =>
      first.toNat / 4 :: (first.toNat % 4 * 16 + second.toNat / 16) :: (second.toNat % 16 * 4 + third.toNat / 64) ::
        third.toNat % 64 :: sextets rest

/-- The bits that do not make up a byte are dropped. -/
def bytes : List Nat → List UInt8
  | first :: second :: third :: fourth :: rest =>
      UInt8.ofNat (first * 4 + second / 16) :: UInt8.ofNat (second % 16 * 16 + third / 4) ::
        UInt8.ofNat (third % 4 * 64 + fourth) :: bytes rest
  | [first, second, third] => [UInt8.ofNat (first * 4 + second / 16), UInt8.ofNat (second % 16 * 16 + third / 4)]
  | [first, second] => [UInt8.ofNat (first * 4 + second / 16)]
  | _ => []

def encode (content : List UInt8) : Utf16 := (sextets content).map unitOf

/-- The reader stops at the first unit that is in no alphabet. -/
def decode (text : Utf16) : List UInt8 := bytes ((text.map sextetOf).takeWhile Option.isSome |>.filterMap id)

/-- A letter, a digit, an underscore or a hyphen. -/
def isWord (unit : UInt16) : Bool :=
  (65 ≤ unit && unit ≤ 90) || (97 ≤ unit && unit ≤ 122) || (48 ≤ unit && unit ≤ 57) || unit = 95 || unit = 45

theorem sextets_lt (content : List UInt8) : ∀ sextet ∈ sextets content, sextet < 64 := by
  fun_induction sextets content with
  | case1 => simp
  | case2 first =>
      have bound := first.toNat_lt
      simp only [List.forall_mem_cons]
      refine ⟨?_, ?_, nofun⟩ <;> omega
  | case3 first second =>
      have bound := first.toNat_lt
      have bound' := second.toNat_lt
      simp only [List.forall_mem_cons]
      refine ⟨?_, ?_, ?_, nofun⟩ <;> omega
  | case4 first second third rest ih =>
      have bound := first.toNat_lt
      have bound' := second.toNat_lt
      have bound'' := third.toNat_lt
      simp only [List.forall_mem_cons]
      refine ⟨?_, ?_, ?_, ?_, ih⟩ <;> omega

variable {sextet : Nat}

theorem sextetOf_unitOf (small : sextet < 64) : sextetOf (unitOf sextet) = some sextet := by
  have all : ∀ sextet < 64, sextetOf (unitOf sextet) = some sextet := by decide +kernel
  exact all sextet small

theorem isWord_unitOf (small : sextet < 64) : isWord (unitOf sextet) = true := by
  have all : ∀ sextet < 64, isWord (unitOf sextet) = true := by decide +kernel
  exact all sextet small

theorem bytes_sextets (content : List UInt8) : bytes (sextets content) = content := by
  have byte {value : Nat} {whole : UInt8} (same : value = whole.toNat) : UInt8.ofNat value = whole := by
    rw [same, UInt8.ofNat_toNat]
  fun_induction sextets content with
  | case1 => rfl
  | case2 first =>
      have bound := first.toNat_lt
      rw [bytes, @byte _ first (by omega)]
  | case3 first second =>
      have bound := first.toNat_lt
      have bound' := second.toNat_lt
      rw [bytes, @byte _ first (by omega), @byte _ second (by omega)]
  | case4 first second third rest ih =>
      have bound := first.toNat_lt
      have bound' := second.toNat_lt
      have bound'' := third.toNat_lt
      rw [bytes, @byte _ first (by omega), @byte _ second (by omega), @byte _ third (by omega), ih]

/-- What is written is read again. -/
theorem decode_encode (content : List UInt8) : decode (encode content) = content := by
  have known : ((sextets content).map unitOf).map sextetOf = (sextets content).map some := by
    rw [List.map_map]
    exact List.map_congr_left fun sextet member => sextetOf_unitOf (sextets_lt content sextet member)
  have whole : ((sextets content).map some).takeWhile Option.isSome = (sextets content).map some := by
    rw [List.takeWhile_eq_self_iff]
    simp
  rw [decode, encode, known, whole, List.filterMap_map]
  simp [bytes_sextets]

theorem isWord_encode (content : List UInt8) : ∀ unit ∈ encode content, isWord unit = true := by
  intro unit member
  obtain ⟨sextet, listed, rfl⟩ := List.mem_map.mp member
  exact isWord_unitOf (sextets_lt content sextet listed)

theorem encode_ne_nil {content : List UInt8} (filled : content ≠ []) : encode content ≠ [] := by
  intro empty
  have read := decode_encode content
  rw [empty] at read
  exact filled (read.symm.trans rfl)

end NimbleBrain.Library.Base64
