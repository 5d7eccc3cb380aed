import Mathlib.Algebra.Ring.Nat
import Mathlib.Data.List.TakeWhile
import Mathlib.Tactic.Common

/- An address of four bytes and an address of eight pieces, with their normal texts and their blocks. -/

namespace NimbleBrain.Library.Ip

abbrev Text := List Char

/-- A value lies in a block when it has the first bits of the block. -/
def inBlock (width bits base value : Nat) : Bool := value / 2 ^ (width - bits) = base / 2 ^ (width - bits)

def decimal (value : Nat) : Text := Nat.toDigits 10 value

def hex (value : Nat) : Text := Nat.toDigits 16 value

def hexDigit? (c : Char) : Option Nat :=
  if '0' ≤ c ∧ c ≤ '9' then some (c.toNat - 48)
  else if 'a' ≤ c ∧ c ≤ 'f' then some (c.toNat - 87)
  else if 'A' ≤ c ∧ c ≤ 'F' then some (c.toNat - 55)
  else none

def ofHex (text : Text) : Nat := text.foldl (fun value c => value * 16 + (hexDigit? c).getD 0) 0

instance neZero_byte : NeZero 256 := inferInstance

instance neZero_piece : NeZero 65536 := inferInstance

structure Ipv4 where
  a : Fin 256
  b : Fin 256
  c : Fin 256
  d : Fin 256
  deriving DecidableEq

structure Ipv6 where
  p0 : Fin 65536
  p1 : Fin 65536
  p2 : Fin 65536
  p3 : Fin 65536
  p4 : Fin 65536
  p5 : Fin 65536
  p6 : Fin 65536
  p7 : Fin 65536
  deriving DecidableEq

namespace Ipv4

def value (address : Ipv4) : Nat := ((address.a * 256 + address.b) * 256 + address.c) * 256 + address.d

def text (address : Ipv4) : Text :=
  decimal address.a ++ '.' :: (decimal address.b ++ '.' :: (decimal address.c ++ '.' :: decimal address.d))

def inBlock (base : Ipv4) (bits : Nat) (address : Ipv4) : Bool := Ip.inBlock 32 bits base.value address.value

end Ipv4

namespace Ipv6

def pieces (address : Ipv6) : List Nat :=
  [address.p0, address.p1, address.p2, address.p3, address.p4, address.p5, address.p6, address.p7]

def value (address : Ipv6) : Nat := address.pieces.foldl (fun value piece => value * 65536 + piece) 0

def inBlock (base : Ipv6) (bits : Nat) (address : Ipv6) : Bool := Ip.inBlock 128 bits base.value address.value

/-- The first longest run of at least two zero pieces. The run under way and the longest one so far are kept. -/
def compressFrom : List Nat → Nat → Option Nat → Nat → Option Nat → Nat → Option Nat
  | [], _, found, foundSize, longest, longestSize => if longestSize < foundSize then found else longest
  | piece :: rest, index, found, foundSize, longest, longestSize =>
      if piece = 0 then compressFrom rest (index + 1) (some (found.getD index)) (foundSize + 1) longest longestSize
      else if longestSize < foundSize then compressFrom rest (index + 1) none 0 found foundSize
      else compressFrom rest (index + 1) none 0 longest longestSize

/-- The run that is compressed is written as one gap. -/
def serializeFrom (compress : Option Nat) : List Nat → Nat → Bool → Text
  | [], _, _ => []
  | piece :: rest, index, ignore0 =>
      if ignore0 && piece = 0 then serializeFrom compress rest (index + 1) true
      else if compress = some index then
        (if index = 0 then [':', ':'] else [':']) ++ serializeFrom compress rest (index + 1) true
      else
        hex piece ++ (if rest.isEmpty then [] else [':']) ++ serializeFrom compress rest (index + 1) false

/-- Pieces without a gap. -/
def joined (pieces : List Nat) : Text := [':'].intercalate (pieces.map hex)

def text (address : Ipv6) : Text :=
  serializeFrom (compressFrom address.pieces 0 none 0 none 1) address.pieces 0 false

/-- The four bytes that are mapped into six pieces. -/
def mapped? (address : Ipv6) : Option Ipv4 :=
  if address.p0 = 0 ∧ address.p1 = 0 ∧ address.p2 = 0 ∧ address.p3 = 0 ∧ address.p4 = 0 ∧ address.p5 = 65535 then
    some {
      a := Fin.ofNat 256 (address.p6 / 256)
      b := Fin.ofNat 256 address.p6
      c := Fin.ofNat 256 (address.p7 / 256)
      d := Fin.ofNat 256 address.p7 }
  else none

end Ipv6

variable {c : Char} {digit : Nat}

theorem mem_toDigits {base value : Nat} (more : 1 < base) (member : c ∈ Nat.toDigits base value) :
    ∃ digit < base, c = Nat.digitChar digit := by
  induction value using Nat.strongRecOn with
  | ind value ih =>
      rw [Nat.toDigits_eq_if more] at member
      split at member
      · rename_i small
        exact ⟨value, small, List.mem_singleton.mp member⟩
      · rename_i large
        rcases List.mem_append.mp member with member | member
        · exact ih _ (Nat.div_lt_self (by omega) more) member
        · exact ⟨value % base, Nat.mod_lt _ (by omega), List.mem_singleton.mp member⟩

/-- Digits are no points, no colons and no brackets, and have no upper case. -/
theorem digitChar_plain (small : digit < 16) :
    digit.digitChar ≠ '.' ∧ digit.digitChar ≠ ':' ∧ digit.digitChar ≠ '[' ∧ digit.digitChar.toLower = digit.digitChar := by
  have all : ∀ value ∈ List.range 16, value.digitChar ≠ '.' ∧ value.digitChar ≠ ':' ∧ value.digitChar ≠ '[' ∧
      value.digitChar.toLower = value.digitChar := by decide
  exact all digit (List.mem_range.mpr small)

theorem hexDigit?_digitChar (small : digit < 16) : hexDigit? digit.digitChar = some digit := by
  have all : ∀ value ∈ List.range 16, hexDigit? value.digitChar = some value := by decide
  exact all digit (List.mem_range.mpr small)

theorem ofHex_hex (value : Nat) : ofHex (hex value) = value := by
  have more : 1 < 16 := by decide
  induction value using Nat.strongRecOn with
  | ind value ih =>
      rw [hex, Nat.toDigits_eq_if more]
      split
      · rename_i small
        simp [ofHex, hexDigit?_digitChar small]
      · have higher := ih (value / 16) (Nat.div_lt_self (by omega) more)
        rw [ofHex, hex] at higher
        rw [ofHex, List.foldl_append, higher]
        simp only [List.foldl_cons, List.foldl_nil, hexDigit?_digitChar (Nat.mod_lt value (by decide : 16 > 0)),
          Option.getD_some]
        omega

theorem colon_not_mem_hex (value : Nat) : ':' ∉ hex value := by
  intro member
  obtain ⟨digit, small, same⟩ := mem_toDigits (by decide) member
  exact (digitChar_plain small).2.1 same.symm

theorem decimal_inj {value other : Nat} (same : decimal value = decimal other) : value = other := by
  have values := congrArg (Nat.ofDigitChars 10 · 0) same
  simpa [decimal] using values

theorem Ipv4.mem_text {address : Ipv4} (member : c ∈ address.text) :
    c = '.' ∨ ∃ digit < 10, c = Nat.digitChar digit := by
  have digits {value : Nat} (member : c ∈ decimal value) : ∃ digit < 10, c = Nat.digitChar digit :=
    mem_toDigits (by decide) member
  simp only [text, List.mem_append, List.mem_cons] at member
  rcases member with member | point | member | point | member | point | member
  · exact .inr (digits member)
  · exact .inl point
  · exact .inr (digits member)
  · exact .inl point
  · exact .inr (digits member)
  · exact .inl point
  · exact .inr (digits member)

/-- Two rows without points that are followed by one are read apart in one way. -/
theorem point_split {first second : Text} (plain : '.' ∉ first) (plain' : '.' ∉ second) {rest other : Text}
    (same : first ++ '.' :: rest = second ++ '.' :: other) : first = second ∧ rest = other := by
  have cut {row tail : Text} (free : '.' ∉ row) : (row ++ '.' :: tail).takeWhile (· ≠ '.') = row := by
    rw [List.takeWhile_append_of_pos]
    · simp
    · exact fun c member => decide_eq_true fun same => free (same ▸ member)
  have rows : first = second := by rw [← cut plain, same, cut plain']
  subst rows
  exact ⟨rfl, (List.cons.inj (List.append_cancel_left same)).2⟩

namespace Ipv4

/-- The first byte, the first twelve bits and the first two bytes of an address. -/
theorem value_div (address : Ipv4) :
    address.value / 2 ^ 24 = address.a ∧ address.value / 2 ^ 20 = address.a * 16 + address.b / 16 ∧
      address.value / 2 ^ 16 = address.a * 256 + address.b := by
  obtain ⟨a, b, c, d⟩ := address
  have bounds : (a : Nat) < 256 ∧ (b : Nat) < 256 ∧ (c : Nat) < 256 ∧ (d : Nat) < 256 :=
    ⟨a.isLt, b.isLt, c.isLt, d.isLt⟩
  simp only [value]
  omega

theorem inBlock_eight (base address : Ipv4) : base.inBlock 8 address = decide (address.a = base.a) := by
  simp only [inBlock, Ip.inBlock, (value_div _).1, Fin.val_inj]

theorem inBlock_twelve (base address : Ipv4) : base.inBlock 12 address =
    decide (address.a = base.a ∧ (address.b : Nat) / 16 = base.b / 16) := by
  have small := address.b.isLt
  have small' := base.b.isLt
  simp only [inBlock, Ip.inBlock, (value_div _).2.1, decide_eq_decide, Fin.ext_iff]
  omega

theorem inBlock_sixteen (base address : Ipv4) : base.inBlock 16 address =
    decide (address.a = base.a ∧ address.b = base.b) := by
  have small := address.b.isLt
  have small' := base.b.isLt
  simp only [inBlock, Ip.inBlock, (value_div _).2.2, decide_eq_decide, Fin.ext_iff]
  omega

end Ipv4

namespace Ipv6

/-- A block of at most sixteen bits is decided by the first piece. -/
theorem inBlock_first (base address : Ipv6) {bits : Nat} (few : bits ≤ 16) :
    base.inBlock bits address = decide ((address.p0 : Nat) / 2 ^ (16 - bits) = base.p0 / 2 ^ (16 - bits)) := by
  have first (address : Ipv6) : address.value / 2 ^ 112 = address.p0 := by
    obtain ⟨p0, p1, p2, p3, p4, p5, p6, p7⟩ := address
    simp only [value, pieces, List.foldl_cons, List.foldl_nil]
    omega
  have split : 128 - bits = 112 + (16 - bits) := by omega
  simp only [inBlock, Ip.inBlock, split, Nat.pow_add, ← Nat.div_div_eq_div_mul, first]

end Ipv6

/-- A number of four hexadecimal digits. -/
theorem hex_four {value : Nat} (large : 4096 ≤ value) (small : value < 65536) : hex value =
    [(value / 4096).digitChar, (value / 256 % 16).digitChar, (value / 16 % 16).digitChar,
      (value % 16).digitChar] := by
  have more : 1 < 16 := by decide
  rw [hex, Nat.toDigits_of_base_le more (by omega), Nat.toDigits_of_base_le more (by omega),
    Nat.toDigits_of_base_le more (by omega), Nat.toDigits_of_lt_base (by omega)]
  simp only [Nat.div_div_eq_div_mul, List.cons_append, List.nil_append, Nat.reduceMul]

namespace Ipv6

/-- The run that is compressed does not begin before the pieces that are left. -/
theorem compressFrom_after (bound : Nat) (pieces : List Nat) (index : Nat) (found : Option Nat) (foundSize : Nat)
    (longest : Option Nat) (longestSize : Nat) (later : bound ≤ index) (run : ∀ start ∈ found, bound ≤ start)
    (best : ∀ start ∈ longest, bound ≤ start) :
    ∀ start ∈ compressFrom pieces index found foundSize longest longestSize, bound ≤ start := by
  induction pieces generalizing index found foundSize longest longestSize with
  | nil =>
      rw [compressFrom]
      split
      · exact run
      · exact best
  | cons piece rest ih =>
      rw [compressFrom]
      split
      · refine ih _ _ _ _ _ (Nat.le_succ_of_le later) (fun start same => ?_) best
        cases found with
        | none => exact Option.some.inj same ▸ later
        | some first => exact run start same
      · split
        · exact ih _ _ _ _ _ (Nat.le_succ_of_le later) nofun run
        · exact ih _ _ _ _ _ (Nat.le_succ_of_le later) nofun best

/-- A first piece that is not zero is no part of a gap. -/
theorem compressFrom_first (address : Ipv6) (filled : (address.p0 : Nat) ≠ 0) :
    compressFrom address.pieces 0 none 0 none 1 ≠ some 0 := by
  intro same
  rw [pieces, compressFrom, if_neg filled, if_neg (by omega)] at same
  exact absurd (compressFrom_after 1 _ 1 none 0 none 1 (Nat.le_refl _) nofun nofun 0 same) (by omega)

variable {index start : Nat} {address : Ipv6}

/-- Behind the gap every piece is written. -/
theorem serializeFrom_later (pieces : List Nat) (later : start < index) :
    serializeFrom (some start) pieces index false = joined pieces := by
  induction pieces generalizing index with
  | nil => rfl
  | cons piece rest ih =>
      have other : some start ≠ some index := fun same => by cases same; omega
      rw [serializeFrom, if_neg (by simp), if_neg other, ih (by omega)]
      cases rest with
      | nil => simp [joined]
      | cons next rest => simp [joined, List.intercalate]

/-- The gap ends at the first piece that is not zero. -/
theorem serializeFrom_gap (pieces : List Nat) (later : start < index) :
    serializeFrom (some start) pieces index true = joined (pieces.dropWhile (· = 0)) := by
  induction pieces generalizing index with
  | nil => rfl
  | cons piece rest ih =>
      by_cases zero : piece = 0
      · rw [serializeFrom, if_pos (by simp [zero]), ih (by omega), List.dropWhile_cons_of_pos (by simp [zero])]
      · have other : some start ≠ some index := fun same => by cases same; omega
        have plain := serializeFrom_later (piece :: rest) later
        rw [serializeFrom, if_neg (by simp), if_neg other] at plain
        rw [serializeFrom, if_neg (by simp [zero]), if_neg other, plain,
          List.dropWhile_cons_of_neg (by simp [zero])]

/-- A text begins with its first piece or with a gap. -/
theorem text_cases (address : Ipv6) : (∃ rest, address.text = hex address.p0 ++ ':' :: rest) ∨
    (address.p0 : Nat) = 0 ∧ address.text = ':' :: ':' :: joined (address.pieces.dropWhile (· = 0)) := by
  have first := compressFrom_first address
  unfold text
  generalize compressFrom address.pieces 0 none 0 none 1 = compress at first
  by_cases gap : compress = some 0
  · have zero : (address.p0 : Nat) = 0 := Decidable.not_not.mp fun filled => first filled gap
    subst gap
    have dropped : address.pieces.dropWhile (· = 0) = [(address.p1 : Nat), address.p2, address.p3, address.p4,
        address.p5, address.p6, address.p7].dropWhile (· = 0) :=
      List.dropWhile_cons_of_pos (decide_eq_true zero)
    refine .inr ⟨zero, ?_⟩
    rw [dropped, pieces, serializeFrom, if_neg (by simp), if_pos rfl, if_pos rfl, serializeFrom_gap _ (by decide)]
    rfl
  · rw [pieces, serializeFrom, if_neg (by simp), if_neg gap]
    refine .inl ⟨serializeFrom compress
      [address.p1, address.p2, address.p3, address.p4, address.p5, address.p6, address.p7] 1 false, ?_⟩
    simp only [List.isEmpty_cons, Bool.false_eq_true, if_false, List.append_assoc, List.singleton_append]

/-- An address whose first piece is not zero begins with that piece. -/
theorem text_of_first (address : Ipv6) (filled : (address.p0 : Nat) ≠ 0) :
    ∃ rest, address.text = hex address.p0 ++ ':' :: rest :=
  (text_cases address).resolve_right fun gap => filled gap.1

/-- The pieces before the first one that is not zero are zero. -/
theorem zeros_before (address : Ipv6) : address.pieces =
    List.replicate (8 - (address.pieces.dropWhile (· = 0)).length) 0 ++ address.pieces.dropWhile (· = 0) := by
  have parts := List.takeWhile_append_dropWhile (p := fun piece => decide (piece = 0)) (l := address.pieces)
  have zeros : address.pieces.takeWhile (· = 0) =
      List.replicate (8 - (address.pieces.dropWhile (· = 0)).length) 0 := by
    refine List.eq_replicate_iff.mpr ⟨?_, ?_⟩
    · have lengths := congrArg List.length parts
      have eight : address.pieces.length = 8 := rfl
      rw [List.length_append, eight] at lengths
      omega
    · intro piece member
      have zero := List.mem_takeWhile_imp member
      exact of_decide_eq_true zero
  rw [← zeros, parts]

/-- The pieces are read off a text that begins with a gap. -/
theorem pieces_of_text {rows : List Text} (plain : ∀ row ∈ rows, ':' ∉ row) (more : rows ≠ [])
    (text : address.text = ':' :: ':' :: [':'].intercalate rows) (filled : [':'].intercalate rows ≠ []) :
    address.pieces = List.replicate (8 - rows.length) 0 ++ rows.map ofHex := by
  rcases text_cases address with ⟨other, first⟩ | ⟨-, gap⟩
  · rw [text] at first
    cases digits : hex address.p0 with
    | nil => exact absurd digits Nat.toDigits_ne_nil
    | cons c others =>
        rw [digits] at first
        have same := (List.cons.inj first).1
        exact absurd (same ▸ digits ▸ List.mem_cons_self) (colon_not_mem_hex address.p0)
  · have same : [':'].intercalate rows = joined (address.pieces.dropWhile (· = 0)) := by
      rw [text] at gap
      exact (List.cons.inj (List.cons.inj gap).2).2
    have behind : (address.pieces.dropWhile (· = 0)).map hex ≠ [] := by
      intro empty
      rw [joined, empty] at same
      exact filled same
    have written : (address.pieces.dropWhile (· = 0)).map hex = rows := by
      have halves := congrArg (List.splitOn ':') same
      rw [List.splitOn_intercalate ':' plain more, joined, List.splitOn_intercalate ':' ?_ behind] at halves
      · exact halves.symm
      · intro digits member
        obtain ⟨piece, -, rfl⟩ := List.mem_map.mp member
        exact colon_not_mem_hex piece
    have read : address.pieces.dropWhile (· = 0) = rows.map ofHex := by
      rw [← written, List.map_map]
      exact (List.map_id'' ofHex_hex _).symm
    rw [zeros_before address, read, List.length_map]

theorem ext_pieces {other : Ipv6} (same : address.pieces = other.pieces) : address = other := by
  simp only [pieces, List.cons.injEq, Fin.val_inj, and_true] at same
  obtain ⟨p0, p1, p2, p3, p4, p5, p6, p7⟩ := address
  simp_all

/-- The address of the own machine is the only one that is written so. -/
theorem loopback_of_text (text : address.text = "::1".toList) :
    address = ⟨0, 0, 0, 0, 0, 0, 0, 1⟩ := by
  have plain : ∀ row ∈ [['1']], ':' ∉ row := by simp
  exact ext_pieces (pieces_of_text plain (by simp) text (by simp))

/-- The mark of a mapped address behind a gap. -/
theorem mapped_of_text {mark high low : Text} (marked : ofHex mark = 65535)
    (plain : ∀ row ∈ [mark, high, low], ':' ∉ row)
    (text : address.text = ':' :: ':' :: [':'].intercalate [mark, high, low]) :
    address.mapped?.isSome ∧ (address.p6 : Nat) = ofHex high ∧ (address.p7 : Nat) = ofHex low := by
  have whole := pieces_of_text plain (by simp) text (by simp)
  simp only [pieces, List.map_cons, List.map_nil, marked, List.length_cons, List.length_nil, Nat.reduceAdd,
    Nat.reduceSub, List.replicate_succ, List.replicate_zero, List.nil_append, List.cons_append, List.cons.injEq,
    and_true] at whole
  obtain ⟨zero, first, second, third, fourth, fifth, sixth, last⟩ := whole
  have zeros : address.p0 = 0 ∧ address.p1 = 0 ∧ address.p2 = 0 ∧ address.p3 = 0 ∧ address.p4 = 0 ∧
      address.p5 = 65535 := ⟨Fin.ext zero, Fin.ext first, Fin.ext second, Fin.ext third, Fin.ext fourth, Fin.ext fifth⟩
  exact ⟨by rw [mapped?, if_pos zeros]; rfl, sixth, last⟩

theorem mem_serializeFrom {compress : Option Nat} {pieces : List Nat} {ignore0 : Bool} {c : Char}
    (member : c ∈ serializeFrom compress pieces index ignore0) : c = ':' ∨ ∃ digit < 16, c = Nat.digitChar digit := by
  induction pieces generalizing index ignore0 with
  | nil => cases member
  | cons piece rest ih =>
      rw [serializeFrom] at member
      split at member
      · exact ih member
      · split at member
        · rcases List.mem_append.mp member with colons | later
          · split at colons <;> simp_all
          · exact ih later
        · rcases List.mem_append.mp member with front | later
          · rcases List.mem_append.mp front with digits | colon
            · exact .inr (mem_toDigits (by decide) digits)
            · split at colon
              · cases colon
              · exact .inl (List.mem_singleton.mp colon)
          · exact ih later

/-- A mapped address is written with its last two pieces apart. -/
theorem text_of_mapped {inner : Ipv4} (mapped : address.mapped? = some inner) :
    address.text = "::ffff:".toList ++ (hex address.p6 ++ ':' :: hex address.p7) := by
  obtain ⟨p0, p1, p2, p3, p4, p5, p6, p7⟩ := address
  unfold mapped? at mapped
  split at mapped
  · rename_i zeros
    obtain ⟨rfl, rfl, rfl, rfl, rfl, rfl⟩ := zeros
    have value : ((65535 : Fin 65536) : Nat) = 65535 := rfl
    have ones : hex 65535 = "ffff".toList := by decide
    by_cases sixth : (p6 : Nat) = 0 <;> by_cases last : (p7 : Nat) = 0 <;>
      simp [text, pieces, compressFrom, serializeFrom, sixth, last, value, ones]
  · cases mapped

end Ipv6

end NimbleBrain.Library.Ip
