import NimbleBrain.Library.JsonText

/- A text is stored in bytes. Bytes that are no character are read as the replacement character. -/

namespace NimbleBrain.Library.Utf8

/-- A character of several bytes: how many are missing, where the next one lies and the value so far. -/
structure Begun where
  missing : Nat
  low : Nat
  high : Nat
  value : Nat
  deriving DecidableEq

def replacement : UInt16 := 65533

def unitsOfValue (value : Nat) : Utf16 :=
  if value < 65536 then [UInt16.ofNat value]
  else [UInt16.ofNat (55296 + (value - 65536) / 1024), UInt16.ofNat (56320 + (value - 65536) % 1024)]

/-- A byte between two characters. No character begins with an overlong form or beyond the last one. -/
def startByte (byte : Nat) : Utf16 × Option Begun :=
  if byte < 128 then ([UInt16.ofNat byte], none)
  else if byte < 194 then ([replacement], none)
  else if byte < 224 then ([], some ⟨1, 128, 191, byte - 192⟩)
  else if byte < 240 then
    ([], some ⟨2, if byte = 224 then 160 else 128, if byte = 237 then 159 else 191, byte - 224⟩)
  else if byte < 245 then
    ([], some ⟨3, if byte = 240 then 144 else 128, if byte = 244 then 143 else 191, byte - 240⟩)
  else ([replacement], none)

/-- A byte that does not continue the character ends it and is looked at anew. -/
def nextByte : Option Begun → Nat → Utf16 × Option Begun
  | none, byte => startByte byte
  | some begun, byte =>
      if begun.low ≤ byte ∧ byte ≤ begun.high then
        if begun.missing = 1 then (unitsOfValue (begun.value * 64 + (byte - 128)), none)
        else ([], some ⟨begun.missing - 1, 128, 191, begun.value * 64 + (byte - 128)⟩)
      else (replacement :: (startByte byte).1, (startByte byte).2)

def decodeFrom : Option Begun → List UInt8 → Utf16
  | none, [] => []
  | some _, [] => [replacement]
  | state, byte :: rest => (nextByte state byte.toNat).1 ++ decodeFrom (nextByte state byte.toNat).2 rest

def decode (bytes : List UInt8) : Utf16 := decodeFrom none bytes

def encode (characters : List Char) : List UInt8 := characters.flatMap String.utf8EncodeChar

def unitsOf (characters : List Char) : Utf16 := characters.flatMap Utf16.unitsOf

/-- The bytes that a text takes. Half a pair is stored as the replacement character. -/
def tokenLength : Utf16.Token → Nat
  | .single unit => if unit.toNat < 128 then 1 else if unit.toNat < 2048 then 2 else 3
  | .pair _ _ => 4

def byteLength (text : Utf16) : Nat := ((Utf16.tokens text).map tokenLength).sum

theorem unitsOf_append (first second : List Char) : unitsOf (first ++ second) = unitsOf first ++ unitsOf second :=
  List.flatMap_append

theorem encode_append (first second : List Char) : encode (first ++ second) = encode first ++ encode second :=
  List.flatMap_append

/-- The bytes lead from one state to the next, and the last one gives the units. -/
inductive Leads : Option Begun → List UInt8 → Utf16 → Prop where
  | last {state : Option Begun} {byte : UInt8} {units : Utf16}
      (ends : nextByte state byte.toNat = (units, none)) : Leads state [byte] units
  | more {state : Option Begun} {byte : UInt8} {begun : Begun} {rest : List UInt8} {units : Utf16}
      (goes : nextByte state byte.toNat = ([], some begun)) (later : Leads (some begun) rest units) :
      Leads state (byte :: rest) units

theorem decodeFrom_cons (state : Option Begun) (byte : UInt8) (rest : List UInt8) :
    decodeFrom state (byte :: rest) =
      (nextByte state byte.toNat).1 ++ decodeFrom (nextByte state byte.toNat).2 rest := by
  cases state <;> rfl

variable {bytes : List UInt8} {state : Option Begun} {units text first second : Utf16} {begun : Begun}
  {byte value : Nat}

theorem Leads.decodeFrom_append (leads : Leads state bytes units) (rest : List UInt8) :
    decodeFrom state (bytes ++ rest) = units ++ decode rest := by
  induction leads with
  | last ends => rw [List.singleton_append, decodeFrom_cons, ends, decode]
  | more goes _ ih => rw [List.cons_append, decodeFrom_cons, goes, ih, List.nil_append]

/-- A character that is cut off is one replacement character. -/
theorem Leads.decodeFrom_cut {front behind : List UInt8} (leads : Leads state bytes units)
    (whole : bytes = front ++ behind) (begun : front ≠ []) (cut : behind ≠ []) :
    decodeFrom state front = [replacement] := by
  induction leads generalizing front with
  | last ends =>
      cases front with
      | nil => exact absurd rfl begun
      | cons byte front =>
          obtain ⟨-, tail⟩ := List.cons_eq_cons.mp whole
          exact absurd (List.append_eq_nil_iff.mp tail.symm).2 cut
  | more goes later ih =>
      cases front with
      | nil => exact absurd rfl begun
      | cons byte front =>
          obtain ⟨rfl, tail⟩ := List.cons_eq_cons.mp whole
          rw [decodeFrom_cons, goes, List.nil_append]
          cases front with
          | nil => rfl
          | cons next front => exact ih tail nofun

theorem nextByte_start (byte : Nat) : nextByte none byte = startByte byte := rfl

theorem nextByte_more (inside : begun.low ≤ byte ∧ byte ≤ begun.high) (more : begun.missing ≠ 1) :
    nextByte (some begun) byte = ([], some ⟨begun.missing - 1, 128, 191, begun.value * 64 + (byte - 128)⟩) := by
  rw [nextByte, if_pos inside, if_neg more]

theorem nextByte_last (inside : begun.low ≤ byte ∧ byte ≤ begun.high) (last : begun.missing = 1) :
    nextByte (some begun) byte = (unitsOfValue (begun.value * 64 + (byte - 128)), none) := by
  rw [nextByte, if_pos inside, if_pos last]

theorem toNat_ofNat_of_lt (small : value < 256) : (UInt8.ofNat value).toNat = value :=
  UInt8.toNat_ofNat_of_lt' small

theorem startByte_two (low : 194 ≤ byte) (high : byte < 224) :
    startByte byte = ([], some ⟨1, 128, 191, byte - 192⟩) := by
  rw [startByte, if_neg (by omega), if_neg (by omega), if_pos high]

theorem startByte_three (low : 224 ≤ byte) (high : byte < 240) :
    startByte byte =
      ([], some ⟨2, if byte = 224 then 160 else 128, if byte = 237 then 159 else 191, byte - 224⟩) := by
  rw [startByte, if_neg (by omega), if_neg (by omega), if_neg (by omega), if_pos high]

theorem startByte_four (low : 240 ≤ byte) (high : byte < 245) :
    startByte byte =
      ([], some ⟨3, if byte = 240 then 144 else 128, if byte = 244 then 143 else 191, byte - 240⟩) := by
  rw [startByte, if_neg (by omega), if_neg (by omega), if_neg (by omega), if_neg (by omega), if_pos high]

theorem leads_two (low : 128 ≤ value) (high : value < 2048) :
    Leads none [UInt8.ofNat (value / 64 % 32 + 192), UInt8.ofNat (value % 64 + 128)] (unitsOfValue value) := by
  have whole : (value / 64 % 32 + 192 - 192) * 64 + (value % 64 + 128 - 128) = value := by omega
  apply Leads.more
  · rw [toNat_ofNat_of_lt (by omega), nextByte_start, startByte_two (by omega) (by omega)]
  apply Leads.last
  rw [toNat_ofNat_of_lt (by omega), nextByte_last ⟨by dsimp only; omega, by dsimp only; omega⟩ rfl, whole]

theorem leads_three (low : 2048 ≤ value) (high : value < 65536) (scalar : value < 55296 ∨ 57343 < value) :
    Leads none [UInt8.ofNat (value / 4096 % 16 + 224), UInt8.ofNat (value / 64 % 64 + 128),
      UInt8.ofNat (value % 64 + 128)] (unitsOfValue value) := by
  have whole : ((value / 4096 % 16 + 224 - 224) * 64 + (value / 64 % 64 + 128 - 128)) * 64 +
      (value % 64 + 128 - 128) = value := by omega
  apply Leads.more
  · rw [toNat_ofNat_of_lt (by omega), nextByte_start, startByte_three (by omega) (by omega)]
  apply Leads.more
  · rw [toNat_ofNat_of_lt (by omega), nextByte_more ?_ (by dsimp only; omega)]
    dsimp only
    split_ifs <;> omega
  apply Leads.last
  rw [toNat_ofNat_of_lt (by omega), nextByte_last ⟨by dsimp only; omega, by dsimp only; omega⟩ rfl, whole]

theorem leads_four (low : 65536 ≤ value) (high : value < 1114112) :
    Leads none [UInt8.ofNat (value / 262144 % 8 + 240), UInt8.ofNat (value / 4096 % 64 + 128),
      UInt8.ofNat (value / 64 % 64 + 128), UInt8.ofNat (value % 64 + 128)] (unitsOfValue value) := by
  have whole : (((value / 262144 % 8 + 240 - 240) * 64 + (value / 4096 % 64 + 128 - 128)) * 64 +
      (value / 64 % 64 + 128 - 128)) * 64 + (value % 64 + 128 - 128) = value := by omega
  apply Leads.more
  · rw [toNat_ofNat_of_lt (by omega), nextByte_start, startByte_four (by omega) (by omega)]
  apply Leads.more
  · rw [toNat_ofNat_of_lt (by omega), nextByte_more ?_ (by dsimp only; omega)]
    dsimp only
    split_ifs <;> omega
  apply Leads.more
  · rw [toNat_ofNat_of_lt (by omega), nextByte_more ⟨by dsimp only; omega, by dsimp only; omega⟩
      (by dsimp only; omega)]
  apply Leads.last
  rw [toNat_ofNat_of_lt (by omega), nextByte_last ⟨by dsimp only; omega, by dsimp only; omega⟩ rfl, whole]

/-- The bytes of a character are read as its units. -/
theorem leads_character (character : Char) :
    Leads none (String.utf8EncodeChar character) (Utf16.unitsOf character) := by
  have scalar : character.val.toNat < 55296 ∨ 57343 < character.val.toNat ∧ character.val.toNat < 1114112 :=
    character.valid
  change Leads none _ (unitsOfValue character.val.toNat)
  simp only [String.utf8EncodeChar]
  split_ifs with one two three
  · refine .last ?_
    rw [toNat_ofNat_of_lt (by omega), nextByte_start, startByte, if_pos (by omega), unitsOfValue, if_pos (by omega)]
  · exact leads_two (by omega) (by omega)
  · exact leads_three (by omega) (by omega) (by omega)
  · exact leads_four (by omega) (by omega)

/-- What follows a character is read for itself. -/
theorem decode_encode_append (characters : List Char) (rest : List UInt8) :
    decode (encode characters ++ rest) = unitsOf characters ++ decode rest := by
  induction characters with
  | nil => rfl
  | cons character characters ih =>
      rw [encode, List.flatMap_cons, List.append_assoc, decode, (leads_character character).decodeFrom_append]
      change _ ++ decode (encode characters ++ rest) = _
      rw [ih, unitsOf, unitsOf, List.flatMap_cons, List.append_assoc]

theorem decode_encode (characters : List Char) : decode (encode characters) = unitsOf characters := by
  have whole := decode_encode_append characters []
  rwa [List.append_nil, show decode [] = [] from rfl, List.append_nil] at whole

/-- A character that is begun is shown, whatever follows it. -/
theorem decodeFrom_begun_ne_nil (begun : Begun) (bytes : List UInt8) : decodeFrom (some begun) bytes ≠ [] := by
  induction bytes generalizing begun with
  | nil => exact List.cons_ne_nil _ _
  | cons byte rest ih =>
      rw [decodeFrom_cons, nextByte]
      split_ifs
      · rw [unitsOfValue]
        split_ifs <;> exact List.cons_ne_nil _ _
      · exact ih _
      · exact List.cons_ne_nil _ _

/-- Bytes are read as something. -/
theorem decode_ne_nil (filled : bytes ≠ []) : decode bytes ≠ [] := by
  cases bytes with
  | nil => exact absurd rfl filled
  | cons byte rest =>
      rw [decode, decodeFrom_cons, nextByte_start, startByte]
      split_ifs
      all_goals first
        | exact List.cons_ne_nil _ _
        | exact decodeFrom_begun_ne_nil _ _

/-- The front of a stored text is whole characters and at most one that is cut off. -/
theorem encode_take (characters : List Char) (count : Nat) :
    ∃ front behind : List Char, characters = front ++ behind ∧
      ((encode characters).take count = encode front ∨
        ∃ character later begun cut, behind = character :: later ∧ String.utf8EncodeChar character = begun ++ cut ∧
          begun ≠ [] ∧ cut ≠ [] ∧ (encode characters).take count = encode front ++ begun) := by
  induction characters generalizing count with
  | nil => exact ⟨[], [], rfl, .inl (by simp [encode])⟩
  | cons character characters ih =>
      have whole : encode (character :: characters) = String.utf8EncodeChar character ++ encode characters := rfl
      by_cases reaches : (String.utf8EncodeChar character).length ≤ count
      · obtain ⟨front, behind, rfl, found⟩ := ih (count - (String.utf8EncodeChar character).length)
        have taken : (encode (character :: (front ++ behind))).take count = String.utf8EncodeChar character ++
            (encode (front ++ behind)).take (count - (String.utf8EncodeChar character).length) := by
          rw [whole, List.take_append, List.take_of_length_le reaches]
        refine ⟨character :: front, behind, rfl, ?_⟩
        rcases found with same | ⟨next, later, begun, cut, shape, bytes, some, some', same⟩
        · exact .inl (by rw [taken, same]; rfl)
        · refine .inr ⟨next, later, begun, cut, shape, bytes, some, some', ?_⟩
          rw [taken, same, ← List.append_assoc]
          rfl
      · have taken : (encode (character :: characters)).take count = (String.utf8EncodeChar character).take count := by
          rw [whole, List.take_append_of_le_length (by omega)]
        refine ⟨[], character :: characters, rfl, ?_⟩
        by_cases none : count = 0
        · exact .inl (by rw [taken, none]; rfl)
        · refine .inr ⟨character, characters, (String.utf8EncodeChar character).take count,
            (String.utf8EncodeChar character).drop count, rfl, (List.take_append_drop _ _).symm, ?_, ?_, taken⟩
          · intro empty
            rw [List.take_eq_nil_iff] at empty
            rcases empty with empty | empty
            · exact none empty
            · rw [empty] at reaches
              simp at reaches
          · intro empty
            rw [List.drop_eq_nil_iff] at empty
            exact reaches empty

/-- A character as it is written. -/
def tokenOf (character : Char) : Utf16.Token :=
  if character.toNat < 65536 then .single (UInt16.ofNat character.toNat)
  else .pair (UInt16.ofNat (55296 + (character.toNat - 65536) / 1024))
    (UInt16.ofNat (56320 + (character.toNat - 65536) % 1024))

theorem scalar_of_char (character : Char) :
    character.toNat < 55296 ∨ 57343 < character.toNat ∧ character.toNat < 1114112 := character.valid

theorem tokens_unitsOf (character : Char) (rest : Utf16) :
    Utf16.tokens (Utf16.unitsOf character ++ rest) = tokenOf character :: Utf16.tokens rest := by
  have scalar := scalar_of_char character
  by_cases small : character.toNat < 65536
  · have plain : Utf16.isPlain (UInt16.ofNat character.toNat) = true := by
      have same : (UInt16.ofNat character.toNat).toNat = character.toNat := UInt16.toNat_ofNat_of_lt' small
      simp only [Utf16.isPlain, Utf16.isLead, Utf16.isTrail, same]
      rcases scalar with low | ⟨high, -⟩
      · simp [show ¬ 55296 ≤ character.toNat by omega, show ¬ 56320 ≤ character.toNat by omega]
      · simp [show ¬ character.toNat < 56320 by omega, show ¬ character.toNat < 57344 by omega]
    rw [Utf16.unitsOf, if_pos small, tokenOf, if_pos small]
    exact Utf16.tokens_append_plain plain [] rest
  · have lead : Utf16.isLead (UInt16.ofNat (55296 + (character.toNat - 65536) / 1024)) = true := by
      simp only [Utf16.isLead, UInt16.toNat_ofNat', Bool.and_eq_true, decide_eq_true_eq]
      omega
    have trail : Utf16.isTrail (UInt16.ofNat (56320 + (character.toNat - 65536) % 1024)) = true := by
      simp only [Utf16.isTrail, UInt16.toNat_ofNat', Bool.and_eq_true, decide_eq_true_eq]
      omega
    rw [Utf16.unitsOf, if_neg small, tokenOf, if_neg small, List.cons_append, List.singleton_append, Utf16.tokens,
      if_pos (by rw [lead, trail]; rfl)]

theorem tokenLength_tokenOf (character : Char) :
    tokenLength (tokenOf character) = (String.utf8EncodeChar character).length := by
  have same : character.val.toNat = character.toNat := rfl
  rw [tokenOf, String.utf8EncodeChar, same]
  by_cases small : character.toNat < 65536
  · rw [if_pos small, tokenLength, UInt16.toNat_ofNat_of_lt' small]
    by_cases one : character.toNat < 128
    · rw [if_pos one, if_pos (Nat.lt_succ_iff.mp one)]
      rfl
    rw [if_neg one, if_neg fun more => one (Nat.lt_succ_iff.mpr more)]
    by_cases two : character.toNat < 2048
    · rw [if_pos two, if_pos (Nat.lt_succ_iff.mp two)]
      rfl
    · rw [if_neg two, if_neg fun more => two (Nat.lt_succ_iff.mpr more), if_pos (Nat.lt_succ_iff.mp small)]
      rfl
  · rw [if_neg small, if_neg (by omega), if_neg (by omega), if_neg (by omega)]
    rfl

/-- A stored text takes the bytes that are written for it. -/
theorem byteLength_unitsOf (characters : List Char) : byteLength (unitsOf characters) = (encode characters).length := by
  induction characters with
  | nil => rfl
  | cons character characters ih =>
      have units : unitsOf (character :: characters) = Utf16.unitsOf character ++ unitsOf characters := rfl
      have bytes : encode (character :: characters) = String.utf8EncodeChar character ++ encode characters := rfl
      rw [byteLength, units, tokens_unitsOf, List.map_cons, List.sum_cons, tokenLength_tokenOf, bytes,
        List.length_append, ← ih, byteLength]

/-- A token as a character. Half a pair is the replacement character. -/
def characterOf : Utf16.Token → Char
  | .single unit => if Utf16.isPlain unit then Char.ofNat unit.toNat else Char.ofNat 65533
  | .pair lead trail => Char.ofNat (65536 + 1024 * (lead.toNat - 55296) + (trail.toNat - 56320))

def charactersOf (text : Utf16) : List Char := (Utf16.tokens text).map characterOf

/-- The bytes that are stored for a text. -/
def write (text : Utf16) : List UInt8 := encode (charactersOf text)

theorem toNat_ofNat_of_scalar (scalar : value < 55296 ∨ 57343 < value ∧ value < 1114112) :
    (Char.ofNat value).toNat = value := by
  have valid : value.isValidChar := scalar
  rw [Char.ofNat, dif_pos valid]
  rfl

theorem unitsOf_characterOf {token : Utf16.Token} (clean : token.Clean) :
    Utf16.unitsOf (characterOf token) = token.units := by
  cases token with
  | single unit =>
      have bound : unit.toNat < 65536 := unit.toNat_lt
      have plain := clean.2
      simp only [Utf16.isPlain, Utf16.isLead, Utf16.isTrail, Bool.and_eq_true, Bool.not_eq_true', Bool.and_eq_false_iff,
        decide_eq_false_iff_not] at plain
      rw [characterOf, if_pos clean.2, Utf16.unitsOf, toNat_ofNat_of_scalar (by omega), if_pos bound,
        UInt16.ofNat_toNat]
      rfl
  | pair lead trail =>
      have first := clean.1
      have second := clean.2
      simp only [Utf16.isLead, Utf16.isTrail, Bool.and_eq_true, decide_eq_true_eq] at first second
      rw [characterOf, Utf16.unitsOf, toNat_ofNat_of_scalar (by omega), if_neg (by omega)]
      have high : 55296 + (65536 + 1024 * (lead.toNat - 55296) + (trail.toNat - 56320) - 65536) / 1024 = lead.toNat := by
        omega
      have low : 56320 + (65536 + 1024 * (lead.toNat - 55296) + (trail.toNat - 56320) - 65536) % 1024 = trail.toNat := by
        omega
      rw [high, low, UInt16.ofNat_toNat, UInt16.ofNat_toNat]
      rfl

/-- A text without half a pair is the text of its characters. -/
theorem unitsOf_charactersOf (clean : Utf16.Clean text) : unitsOf (charactersOf text) = text := by
  obtain ⟨tokens, each, rfl⟩ := clean
  rw [charactersOf, Utf16.tokens_flatMap_units each]
  induction tokens with
  | nil => rfl
  | cons token rest ih =>
      obtain ⟨own, later⟩ := List.forall_mem_cons.mp each
      rw [List.map_cons, unitsOf, List.flatMap_cons, unitsOf_characterOf own, ← unitsOf, ih later, List.flatMap_cons]

theorem charactersOf_append (clean : Utf16.Clean first) (clean' : Utf16.Clean second) :
    charactersOf (first ++ second) = charactersOf first ++ charactersOf second := by
  obtain ⟨tokens, each, rfl⟩ := clean
  obtain ⟨tokens', each', rfl⟩ := clean'
  rw [← List.flatMap_append, charactersOf, charactersOf, charactersOf,
    Utf16.tokens_flatMap_units (List.forall_mem_append.mpr ⟨each, each'⟩), Utf16.tokens_flatMap_units each,
    Utf16.tokens_flatMap_units each', List.map_append]

theorem write_append (clean : Utf16.Clean first) (clean' : Utf16.Clean second) :
    write (first ++ second) = write first ++ write second := by
  rw [write, charactersOf_append clean clean', encode_append, write, write]

/-- A stored text is read back, and what follows it is read for itself. -/
theorem decode_write_append (clean : Utf16.Clean text) (rest : List UInt8) :
    decode (write text ++ rest) = text ++ decode rest := by
  rw [write, decode_encode_append, unitsOf_charactersOf clean]

/-- The front of a stored text is a front of the text, and a character that is cut off is shown as one unit. -/
theorem decode_take_write (clean : Utf16.Clean text) {count : Nat} (cut : count < (write text).length) :
    ∃ front behind, text = front ++ behind ∧ behind ≠ [] ∧
      (decode ((write text).take count) = front ∨ decode ((write text).take count) = front ++ [replacement]) := by
  obtain ⟨front, behind, shape, found⟩ := encode_take (charactersOf text) count
  have units : text = unitsOf front ++ unitsOf behind := by
    rw [← unitsOf_append, ← shape, unitsOf_charactersOf clean]
  have some : ∀ character later, unitsOf (character :: later) ≠ [] := by
    intro character later empty
    rw [unitsOf, List.flatMap_cons, List.append_eq_nil_iff, Utf16.unitsOf] at empty
    have none := empty.1
    split at none
    all_goals exact nomatch none
  rcases found with whole | ⟨character, later, begun, rest, rfl, bytes, begun', rest', torn⟩
  · cases behind with
    | nil =>
        rw [List.append_nil] at shape
        have taken := congrArg List.length whole
        rw [← shape, List.length_take, ← write] at taken
        omega
    | cons character later =>
        exact ⟨_, _, units, some character later, .inl (by rw [write, whole, decode_encode])⟩
  · refine ⟨_, _, units, some character later, .inr ?_⟩
    rw [write, torn, decode_encode_append, decode, (leads_character character).decodeFrom_cut bytes begun' rest']

end NimbleBrain.Library.Utf8
