import NimbleBrain.Conversation.HeaderLines

/- A scan that goes on from an earlier one says what a scan from the start says, and so do all that go on from it. -/

namespace NimbleBrain.Conversation.HeaderFile

open Engine Library

variable {Amount : Type} {host : Host Amount} {content : List Char}

def startFold (host : Host Amount) : Folded Amount := { metrics := noMetrics host }

/-- The scan is what the front of the file says, and it stopped at a boundary in it. -/
structure Stands (host : Host Amount) (ino : Nat) (front : List Char) (scan : HeaderScan Amount) : Prop where
  file : scan.ino = ino
  folded : foldValues host (startFold host) (eventsOf host front) = some scan.toFolded
  header : ∃ raw read line1, parseMeta host raw = some (some scan.metadata) ∧ Boundary host read raw ∧
    read <+: front ∧ eventsOf host read = eventsOf host front ∧ scan.offset = (Utf8.encode read).length ∧
    line1 <+: read ∧ scan.line1 = Utf8.unitsOf line1

theorem encode_begins {first second : List Char} (begins : first <+: second) :
    Utf8.encode first <+: Utf8.encode second := by
  obtain ⟨rest, rfl⟩ := begins
  exact ⟨Utf8.encode rest, (Utf8.encode_append first rest).symm⟩

theorem encode_eq_nil {characters : List Char} (none : Utf8.encode characters = []) : characters = [] := by
  have units := Utf8.decode_encode characters
  rw [none] at units
  exact unitsOf_eq_nil_iff.mp units.symm

/-- The file as a call sees it: so many bytes when it is opened and so many when it is read. -/
def fileOf (content : List Char) (ino size length : Nat) : OpenFile := ⟨ino, size, (Utf8.encode content).take length⟩

variable {front later line rest : List Char} {length size count : Nat} {scan : HeaderScan Amount}
  {torn : List UInt8} {raw : Json}

/-- A scan of a file that only grew is taken up. -/
theorem Stands.resumes {ino : Nat} (stands : Stands host ino front scan) (grows : front <+: later)
    (bytes : (Utf8.encode content).take size = Utf8.encode later ++ torn) (fits : size ≤ length) :
    scan.resumes (fileOf content ino size length) = true := by
  obtain ⟨raw, read, line1, -, -, begins, -, offset, within, text⟩ := stands.header
  have inside : Utf8.encode read <+: (Utf8.encode content).take size := by
    rw [bytes]
    exact ((encode_begins begins).trans (encode_begins grows)).trans (List.prefix_append _ _)
  have first : Utf8.encode line1 <+: (Utf8.encode content).take length :=
    ((encode_begins within).trans inside).trans (List.take_prefix_take_left fits)
  have size' : scan.offset ≤ size := by
    have shorter := inside.length_le
    rw [List.length_take] at shorter
    omega
  rw [HeaderScan.resumes, Bool.and_eq_true, Bool.and_eq_true, decide_eq_true_eq, decide_eq_true_eq, decide_eq_true_eq]
  refine ⟨⟨stands.file, size'⟩, ?_⟩
  rw [text, Utf8.byteLength_unitsOf, fileOf, ← List.prefix_iff_eq_take.mp first, Utf8.decode_encode]

/-- A scan that is taken up folds what came since. -/
theorem Stands.resume {ino : Nat} (stands : Stands host ino front scan) (wellFormed : WellFormed host content)
    (grows : front <+: later) (bytes : (Utf8.encode content).take size = Utf8.encode later ++ torn)
    (seen : Front content later torn) (fits : size ≤ length) :
    (∃ raw, headerOf host later = some raw ∧ parseMeta host raw = some (some scan.metadata)) ∧
      match foldValues host (startFold host) (eventsOf host later) with
      | none => resumeScan host scan (fileOf content ino size length) = none
      | some _ => ∃ next, resumeScan host scan (fileOf content ino size length) = some next ∧
          Stands host ino later next ∧ next.metadata = scan.metadata := by
  obtain ⟨raw, read, line1, parsed, boundary, begins, events, offset, within, text⟩ := stands.header
  obtain ⟨rest, rfl⟩ := begins.trans grows
  obtain ⟨header, whole⟩ := boundary.append wellFormed seen.begins
  refine ⟨⟨raw, header, parsed⟩, ?_⟩
  have tail : ((Utf8.encode content).take size).drop scan.offset = Utf8.encode rest ++ torn := by
    rw [bytes, Utf8.encode_append, List.append_assoc, offset, List.drop_left]
  have body : ((fileOf content ino size length).bytes.drop scan.offset).take (size - scan.offset) =
      Utf8.encode rest ++ torn := by
    rw [← tail, fileOf, ← List.drop_take, List.take_take, Nat.min_eq_left fits]
  have since : foldValues host (startFold host) (eventsOf host (read ++ rest)) =
      foldValues host scan.toFolded (valuesOf host rest) := by
    rw [whole, foldValues_append, events, stands.folded, Option.bind_some]
  by_cases more : scan.offset < size
  · obtain ⟨taken, takes⟩ := boundary.takes wellFormed seen
    rw [resumeScan, fileOf, if_pos more]
    simp only [fileOf] at body
    simp only [body, decode_front, takes.folds, since]
    cases found : foldValues host scan.toFolded (valuesOf host rest) with
    | none => rfl
    | some folded =>
        refine ⟨_, rfl, ⟨stands.file, since.trans found, ?_⟩, rfl⟩
        obtain ⟨behind, rfl⟩ := takes.begins
        refine ⟨raw, read ++ taken, line1, parsed, takes.boundary, ?_, takes.events, ?_,
          within.trans (List.prefix_append _ _), text⟩
        · rw [← List.append_assoc]
          exact List.prefix_append _ _
        · have front : (Utf8.unitsOf (taken ++ behind) ++ Utf8.decode torn).take (Utf8.unitsOf taken).length =
              Utf8.unitsOf taken := by
            rw [Utf8.unitsOf_append, List.append_assoc, List.take_left]
          simp only [front]
          rw [Utf8.byteLength_unitsOf, Utf8.encode_append, List.length_append, offset]
  · have none : Utf8.encode rest ++ torn = [] := by
      rw [← tail, List.drop_eq_nil_iff, List.length_take]
      omega
    obtain ⟨empty, -⟩ := List.append_eq_nil_iff.mp none
    obtain rfl := encode_eq_nil empty
    have same : foldValues host (startFold host) (eventsOf host (read ++ [])) = some scan.toFolded := by
      rw [List.append_nil, events, stands.folded]
    rw [resumeScan, fileOf, if_neg more, same]
    refine ⟨scan, rfl, ⟨stands.file, same, raw, read, line1, parsed, boundary, ?_, ?_, offset, within, text⟩, rfl⟩
    · exact List.prefix_append _ _
    · rw [List.append_nil]

theorem takeWhile_newlines {line : Utf16} (count : Nat) (free : newline ∉ line) (filled : line ≠ []) (rest : Utf16) :
    (List.replicate count newline ++ (line ++ rest)).takeWhile (· = newline) = List.replicate count newline := by
  obtain ⟨unit, line, rfl⟩ := List.exists_cons_of_ne_nil filled
  have other : unit ≠ newline := fun same => free (same ▸ List.mem_cons_self)
  rw [List.takeWhile_append_of_pos fun unit member => decide_eq_true (List.eq_of_mem_replicate member)]
  simp [other]

theorem takeWhile_line {line : Utf16} (free : newline ∉ line) {rest : Utf16}
    (stop : rest = [] ∨ ∃ body, rest = newline :: body) : (line ++ rest).takeWhile (· ≠ newline) = line := by
  have own : ∀ unit ∈ line, decide (unit ≠ newline) = true := by
    intro unit member
    exact decide_eq_true fun same : unit = newline => free (same ▸ member)
  rw [List.takeWhile_append_of_pos own]
  rcases stop with rfl | ⟨body, rfl⟩
  · rw [List.takeWhile_nil, List.append_nil]
  · simp

/-- The header is the first line behind the empty ones, and the rest is folded. -/
theorem scanText_line {line rest : Utf16} (ino count : Nat) (free : newline ∉ line) (filled : line ≠ [])
    (stop : rest = [] ∨ ∃ body, rest = newline :: body) :
    scanText host ino (List.replicate count newline ++ (line ++ rest)) =
      match jsonParse host.number line with
      | none => some none
      | some raw =>
          (parseMeta host raw).bind fun found =>
            match found with
            | none => some none
            | some parsed =>
                (foldHeaderText host (startFold host) rest.tail).map fun read =>
                  some
                    { toFolded := read.1
                      metadata := parsed
                      line1 := List.replicate count newline ++ line
                      ino
                      offset := Utf8.byteLength ((List.replicate count newline ++ (line ++ rest)).take
                        (count + line.length + min 1 rest.length + read.2)) } := by
  have leading := takeWhile_newlines count free filled rest
  have length : (List.replicate count newline).length = count := List.length_replicate
  have behind : (List.replicate count newline ++ (line ++ rest)).drop count = line ++ rest :=
    List.drop_left' length
  have positive := List.length_pos_iff.mpr filled
  have after : min (count + line.length + 1) (List.replicate count newline ++ (line ++ rest)).length =
      count + line.length + min 1 rest.length := by
    rw [List.length_append, List.length_append, length]
    omega
  have body : (List.replicate count newline ++ (line ++ rest)).drop (count + line.length + min 1 rest.length) =
      rest.tail := by
    rw [Nat.add_assoc, ← List.drop_drop, behind, ← List.drop_drop, List.drop_left]
    rcases stop with rfl | ⟨body, rfl⟩
    · rfl
    · simp
  have line1 : (List.replicate count newline ++ (line ++ rest)).take (count + line.length) =
      List.replicate count newline ++ line := by
    rw [← List.append_assoc]
    exact List.take_left' (by rw [List.length_append, length])
  have differs : ¬ count + line.length = count := by omega
  simp only [scanText, leading, length, behind, takeWhile_line free stop, if_neg differs, after, body, line1]
  rfl

/-- Empty lines alone hold no header. -/
theorem scanText_newlines (ino count : Nat) : scanText host ino (List.replicate count newline) = some none := by
  have leading : (List.replicate count newline).takeWhile (· = newline) = List.replicate count newline :=
    List.takeWhile_eq_self_iff.mpr fun unit member => decide_eq_true (List.eq_of_mem_replicate member)
  simp [scanText, leading]

/-- A front of the file has a header, or it is empty lines. -/
theorem exists_header (front : List Char) :
    (∃ count, front = List.replicate count '\n') ∨
      ∃ count line rest, front = List.replicate count '\n' ++ (line ++ rest) ∧ line ≠ [] ∧ '\n' ∉ line ∧
        (rest = [] ∨ ∃ body, rest = '\n' :: body) := by
  induction front with
  | nil => exact .inl ⟨0, rfl⟩
  | cons character front ih =>
      by_cases empty : character = '\n'
      · subst empty
        rcases ih with ⟨count, rfl⟩ | ⟨count, line, rest, rfl, filled, free, stop⟩
        · exact .inl ⟨count + 1, rfl⟩
        · exact .inr ⟨count + 1, line, rest, rfl, filled, free, stop⟩
      right
      by_cases marked : '\n' ∈ character :: front
      · obtain ⟨line, body, same, free⟩ := List.eq_append_cons_of_mem marked
        refine ⟨0, line, '\n' :: body, same, ?_, free, .inr ⟨body, rfl⟩⟩
        rintro rfl
        exact empty (List.cons_eq_cons.mp same).1
      · exact ⟨0, character :: front, [], by simp, nofun, marked, .inl rfl⟩

theorem headerLines_replicate (count : Nat) (rest : List Char) :
    headerLines (List.replicate count '\n' ++ rest) = headerLines rest := by
  induction count with
  | zero => rfl
  | succ count ih =>
      rw [← ih, headerLines, List.replicate_succ, List.cons_append, List.splitOn_cons_eq_if_modifyHead, if_pos (by rfl)]
      rfl

theorem headerLines_line (filled : line ≠ []) (free : '\n' ∉ line) : headerLines line = [line] := by
  rw [headerLines, List.splitOn_eq_singleton free]
  simp [filled]

theorem headerLines_body (filled : line ≠ []) (free : '\n' ∉ line) (body : List Char) :
    headerLines (line ++ '\n' :: body) = line :: body.splitOn '\n' := by
  rw [headerLines, List.splitOn_append_cons_self_of_not_mem free]
  simp [filled]

theorem unitsOf_replicate (count : Nat) : Utf8.unitsOf (List.replicate count '\n') = List.replicate count newline := by
  induction count with
  | zero => rfl
  | succ count ih =>
      rw [List.replicate_succ, unitsOf_cons, ih]
      rfl

theorem newline_not_mem_unitsOf (free : '\n' ∉ line) : newline ∉ Utf8.unitsOf line := by
  induction line with
  | nil => exact List.not_mem_nil
  | cons character line ih =>
      rw [List.mem_cons, not_or] at free
      rw [unitsOf_cons, List.mem_append, not_or]
      exact ⟨newline_not_mem fun same => free.1 same.symm, ih free.2⟩

theorem splitOn_replicate (count : Nat) (free : '\n' ∉ line) :
    (List.replicate count '\n' ++ line).splitOn '\n' = List.replicate count [] ++ [line] := by
  induction count with
  | zero => exact List.splitOn_eq_singleton free
  | succ count ih =>
      rw [List.replicate_succ, List.cons_append, List.splitOn_cons_eq_if_modifyHead, if_pos (by rfl), ih]
      rfl

/-- What the header of a front leads to. -/
def ScansTo (host : Host Amount) (ino : Nat) (front : List Char) (scanned : Option (Option (HeaderScan Amount))) : Prop :=
  match headerOf host front with
  | none => scanned = some none
  | some raw =>
      match parseMeta host raw with
      | none => scanned = none
      | some none => scanned = some none
      | some (some metadata) =>
          match foldValues host (startFold host) (eventsOf host front) with
          | none => scanned = none
          | some _ => ∃ scan, scanned = some (some scan) ∧ Stands host ino front scan ∧ scan.metadata = metadata

/-- A header that is not whole is no header yet. -/
theorem scanText_cut (wellFormed : WellFormed host content) (seen : Front content front torn) (ino : Nat)
    (shape : front = List.replicate count '\n' ++ line) (free : '\n' ∉ line)
    (cut : Utf8.decode torn = [Utf8.replacement]) :
    ScansTo host ino front (scanText host ino (Utf8.unitsOf front ++ Utf8.decode torn)) := by
  have unparsed : parseLine host line = none := by
    rcases seen.cut with rfl | ⟨-, character, begins, foreign⟩
    · exact nomatch cut
    · exact wellFormed.parseLine_cut begins foreign (by rw [shape, splitOn_replicate count free])
  have header : headerOf host front = none := by
    rw [headerOf, shape, headerLines_replicate]
    cases line with
    | nil => rfl
    | cons character line =>
        rw [headerLines_line (List.cons_ne_nil _ _) free, List.head?_cons, Option.bind_some, unparsed]
  have free' : newline ∉ Utf8.unitsOf line ++ [Utf8.replacement] := by
    rw [List.mem_append, not_or]
    exact ⟨newline_not_mem_unitsOf free, by decide⟩
  rw [ScansTo, header, cut, shape, Utf8.unitsOf_append, unitsOf_replicate, List.append_assoc,
    ← List.append_nil (Utf8.unitsOf line ++ [Utf8.replacement]),
    scanText_line ino count free' (by simp) (.inl rfl), jsonParse_foreign (by decide)]

/-- Behind the header the lines are folded. -/
theorem boundary_header (filled : line ≠ []) (free : '\n' ∉ line) (stop : rest = [] ∨ ∃ body, rest = '\n' :: body)
    (found : parseLine host line = some raw) :
    Boundary host (List.replicate count '\n' ++ (line ++ rest.take 1)) raw ∧
      eventsOf host (List.replicate count '\n' ++ (line ++ rest.take 1)) = [] := by
  rw [eventsOf, headerLines_replicate]
  rcases stop with rfl | ⟨body, rfl⟩
  · rw [List.take_nil, List.append_nil, headerLines_line filled free]
    refine ⟨⟨⟨_, line, splitOn_replicate count free, .inr (by rw [found]; rfl)⟩, ?_⟩, rfl⟩
    rw [headerOf, headerLines_replicate, headerLines_line filled free, List.head?_cons, Option.bind_some, found]
  · rw [show ('\n' :: body).take 1 = '\n' :: [] from rfl, headerLines_body filled free]
    refine ⟨⟨⟨List.replicate count [] ++ [line], [], ?_, .inl rfl⟩, ?_⟩, ?_⟩
    · rw [← List.append_assoc, List.splitOn_append_cons_self, splitOn_replicate count free, List.splitOn_nil]
    · rw [headerOf, headerLines_replicate, headerLines_body filled free, List.head?_cons, Option.bind_some, found]
    · rw [List.splitOn_nil, List.tail_cons, List.filterMap_cons_none parseLine_nil, List.filterMap_nil]

/-- What is kept of a scan from the start when the header is read. -/
theorem scanText_body (wellFormed : WellFormed host content) (seen : Front content front torn) (ino : Nat)
    {metadata : ConversationMeta Amount} (shape : front = List.replicate count '\n' ++ (line ++ rest))
    (boundary : Boundary host (List.replicate count '\n' ++ (line ++ rest.take 1)) raw)
    (before : eventsOf host (List.replicate count '\n' ++ (line ++ rest.take 1)) = [])
    (parsed : parseMeta host raw = some (some metadata)) :
    match foldValues host (startFold host) (eventsOf host front) with
    | none => (foldHeaderText host (startFold host) (Utf8.unitsOf rest.tail ++ Utf8.decode torn)) = none
    | some _ => ∃ folded consumed,
        foldHeaderText host (startFold host) (Utf8.unitsOf rest.tail ++ Utf8.decode torn) = some (folded, consumed) ∧
          Stands host ino front
            { toFolded := folded
              metadata
              line1 := List.replicate count newline ++ Utf8.unitsOf line
              ino
              offset := Utf8.byteLength ((Utf8.unitsOf front ++ Utf8.decode torn).take
                (count + (Utf8.unitsOf line).length + (Utf8.unitsOf (rest.take 1)).length + consumed)) } := by
  have joined : front = List.replicate count '\n' ++ (line ++ rest.take 1) ++ rest.tail := by
    rw [shape, ← List.drop_one, List.append_assoc, List.append_assoc, List.take_append_drop]
  have seen' := seen
  rw [joined] at seen'
  obtain ⟨taken, takes⟩ := boundary.takes wellFormed seen'
  have events : eventsOf host front = valuesOf host rest.tail := by
    rw [joined, (boundary.append wellFormed seen'.begins).2, before, List.nil_append]
  rw [events, takes.folds]
  cases found : foldValues host (startFold host) (valuesOf host rest.tail) with
  | none => rfl
  | some folded =>
      obtain ⟨behind, split⟩ := takes.begins
      have front' : List.replicate count '\n' ++ (line ++ rest.take 1) ++ taken ++ behind = front := by
        rw [joined, List.append_assoc _ taken, split]
      refine ⟨folded, _, rfl, ⟨rfl, by rw [events, found], ?_⟩⟩
      refine ⟨raw, List.replicate count '\n' ++ (line ++ rest.take 1) ++ taken, List.replicate count '\n' ++ line,
        parsed, takes.boundary, ⟨behind, front'⟩, by rw [takes.events, ← joined], ?_, ?_, ?_⟩
      · have length : count + (Utf8.unitsOf line).length + (Utf8.unitsOf (rest.take 1)).length +
            (Utf8.unitsOf taken).length =
            (Utf8.unitsOf (List.replicate count '\n' ++ (line ++ rest.take 1) ++ taken)).length := by
          simp only [Utf8.unitsOf_append, List.length_append, unitsOf_replicate, List.length_replicate]
          omega
        rw [← Utf8.byteLength_unitsOf]
        dsimp only
        rw [length, ← front', Utf8.unitsOf_append _ behind, List.append_assoc (Utf8.unitsOf _), List.take_left]
      · rw [← List.append_assoc, List.append_assoc _ _ taken]
        exact List.prefix_append _ _
      · rw [Utf8.unitsOf_append, unitsOf_replicate]

theorem scanText_whole (wellFormed : WellFormed host content) (seen : Front content front torn) (ino : Nat)
    (shape : front = List.replicate count '\n' ++ (line ++ rest)) (filled : line ≠ []) (free : '\n' ∉ line)
    (stop : rest = [] ∨ ∃ body, rest = '\n' :: body) (whole : rest = [] → Utf8.decode torn = []) :
    ScansTo host ino front (scanText host ino (Utf8.unitsOf front ++ Utf8.decode torn)) := by
  have header : headerOf host front = parseLine host line := by
    rw [headerOf, shape, headerLines_replicate]
    rcases stop with rfl | ⟨body, rfl⟩
    · rw [List.append_nil, headerLines_line filled free, List.head?_cons, Option.bind_some]
    · rw [headerLines_body filled free, List.head?_cons, Option.bind_some]
  have stop' : Utf8.unitsOf rest ++ Utf8.decode torn = [] ∨
      ∃ body, Utf8.unitsOf rest ++ Utf8.decode torn = newline :: body := by
    rcases stop with rfl | ⟨body, rfl⟩
    · exact .inl (by rw [whole rfl]; rfl)
    · exact .inr ⟨Utf8.unitsOf body ++ Utf8.decode torn, rfl⟩
  have tail : (Utf8.unitsOf rest ++ Utf8.decode torn).tail = Utf8.unitsOf rest.tail ++ Utf8.decode torn := by
    rcases stop with rfl | ⟨body, rfl⟩
    · rw [whole rfl]
      rfl
    · rfl
  have first : min 1 (Utf8.unitsOf rest ++ Utf8.decode torn).length = (Utf8.unitsOf (rest.take 1)).length := by
    rcases stop with rfl | ⟨body, rfl⟩
    · rw [whole rfl]
      rfl
    · rw [show Utf8.unitsOf ('\n' :: body) = newline :: Utf8.unitsOf body from rfl, List.cons_append, List.length_cons]
      change min 1 (_ + 1) = 1
      omega
  have text : Utf8.unitsOf front ++ Utf8.decode torn =
      List.replicate count newline ++ (Utf8.unitsOf line ++ (Utf8.unitsOf rest ++ Utf8.decode torn)) := by
    rw [shape, Utf8.unitsOf_append, Utf8.unitsOf_append, unitsOf_replicate, List.append_assoc, List.append_assoc]
  rw [ScansTo, header, text, scanText_line ino count (newline_not_mem_unitsOf free)
    (fun none => filled (unitsOf_eq_nil_iff.mp none)) stop', tail, first, ← text]
  cases found : parseLine host line with
  | none => rw [show jsonParse host.number (Utf8.unitsOf line) = none from found]
  | some raw =>
      rw [show jsonParse host.number (Utf8.unitsOf line) = some raw from found]
      dsimp only
      cases parsed : parseMeta host raw with
      | none => rfl
      | some read =>
          cases read with
          | none => rfl
          | some metadata =>
              obtain ⟨boundary, before⟩ : Boundary host (List.replicate count '\n' ++ (line ++ rest.take 1)) raw ∧
                  eventsOf host (List.replicate count '\n' ++ (line ++ rest.take 1)) = [] :=
                boundary_header filled free stop found
              have body := scanText_body wellFormed seen ino shape boundary before parsed
              dsimp only [Option.bind_some]
              cases folds : foldValues host (startFold host) (eventsOf host front) with
              | none =>
                  rw [folds] at body
                  rw [body, Option.map_none]
              | some _ =>
                  rw [folds] at body
                  obtain ⟨folded, consumed, text, stands⟩ := body
                  exact ⟨_, by rw [text, Option.map_some], stands, rfl⟩

theorem scanText_front (wellFormed : WellFormed host content) (seen : Front content front torn) (ino : Nat) :
    ScansTo host ino front (scanText host ino (Utf8.unitsOf front ++ Utf8.decode torn)) := by
  have shown : Utf8.decode torn = [] ∨ Utf8.decode torn = [Utf8.replacement] := by
    rcases seen.cut with rfl | ⟨shown, -⟩
    · exact .inl rfl
    · exact .inr shown
  rcases exists_header front with ⟨count, shape⟩ | ⟨count, line, rest, shape, filled, free, stop⟩
  · rcases shown with whole | cut
    · have header : headerOf host front = none := by
        rw [headerOf, shape, ← List.append_nil (List.replicate count _), headerLines_replicate]
        rfl
      rw [ScansTo, header, whole, shape, unitsOf_replicate, List.append_nil]
      exact scanText_newlines ino count
    · exact scanText_cut wellFormed seen ino (shape.trans (List.append_nil _).symm) List.not_mem_nil cut
  · by_cases last : rest = [] ∧ Utf8.decode torn = [Utf8.replacement]
    · obtain ⟨rfl, cut⟩ := last
      exact scanText_cut wellFormed seen ino (by rw [shape, List.append_nil]) free cut
    · refine scanText_whole wellFormed seen ino shape filled free stop fun none => ?_
      rcases shown with whole | cut
      · exact whole
      · exact absurd ⟨none, cut⟩ last

end NimbleBrain.Conversation.HeaderFile

/- A file grows in appends that are cut anywhere, and it is scanned again and again, each time from the last scan. Every
answer is that of a scan from the start. -/

namespace NimbleBrain.Conversation.HeaderFile

open Engine Library

variable {Amount : Type} (host : Host Amount) (content : List Char) (ino : Nat)

/-- So many bytes were there when the file was opened, and so many when it was read. -/
structure Look where
  size : Nat
  length : Nat

/-- The file never shrinks. -/
def Grows (reached : Nat) : List Look → Prop
  | [] => True
  | look :: later => reached ≤ look.size ∧ look.size ≤ look.length ∧ Grows look.length later

def call (prior : Option (HeaderScan Amount)) (look : Look) : Option (Option (HeaderScan Amount)) :=
  scanConversationHeader host prior (fileOf content ino look.size look.length)

/-- A call that throws leaves the scan from before it. -/
def keep (prior : Option (HeaderScan Amount)) : Option (Option (HeaderScan Amount)) → Option (HeaderScan Amount)
  | none => prior
  | some given => given

def scanAll (prior : Option (HeaderScan Amount)) (looks : List Look) : Option (HeaderScan Amount) :=
  looks.foldl (fun prior look => keep prior (call host content ino prior look)) prior

/-- What the calls say, one after the other. -/
def answers (prior : Option (HeaderScan Amount)) : List Look → List (Option (Option (ConversationHeader Amount)))
  | [] => []
  | look :: later =>
      (call host content ino prior look).map (·.map headerOfScan) ::
        answers (keep prior (call host content ino prior look)) later

/-- Both answers say the same, and so will all that go on from them. -/
def Alike (reached : Nat) (first second : Option (Option (HeaderScan Amount))) : Prop :=
  match first, second with
  | none, none => True
  | some first, some second =>
      first.map headerOfScan = second.map headerOfScan ∧
        ∀ later, Grows reached later → answers host content ino first later = answers host content ino second later
  | _, _ => False

/-- The lines behind the header, in a text as it is read. -/
def eventLines (text : Utf16) : List Utf16 := ((text.splitOn newline).dropWhile List.isEmpty).tail

/-- Every line is folded once, in its order. -/
def FoldsOnce (bytes : List UInt8) (scan : HeaderScan Amount) : Prop :=
  foldValues host (startFold host) ((eventLines (Utf8.decode bytes)).filterMap (jsonParse host.number)) =
    some scan.toFolded

variable {host content ino}

/-- A scan that is kept is that of a front of the file. -/
def Keeps (host : Host Amount) (content : List Char) (ino seen : Nat) (scan : HeaderScan Amount) : Prop :=
  ∃ front torn, Shows content seen front torn ∧ Stands host ino front scan

variable {front : List Char} {look : Look} {torn : List UInt8} {seen reached : Nat}
  {first second : Option (Option (HeaderScan Amount))} {scan : HeaderScan Amount}
  {prior prior' : Option (HeaderScan Amount)}

theorem call_none (wellFormed : WellFormed host content) (shows : Shows content look.length front torn) :
    ScansTo host ino front (call host content ino none look) := by
  have scanned : ScansTo host ino front (scanText host ino (Utf8.unitsOf front ++ Utf8.decode torn)) :=
    scanText_front wellFormed shows.seen ino
  rwa [← decode_front, ← shows.bytes] at scanned

theorem call_some {prior : HeaderScan Amount} (wellFormed : WellFormed host content)
    (kept : Keeps host content ino seen prior) (grows : seen ≤ look.size) (fits : look.size ≤ look.length)
    (shows : Shows content look.size front torn) :
    ScansTo host ino front (call host content ino (some prior) look) := by
  obtain ⟨before, torn', shows', stands⟩ := kept
  have longer := shows'.mono shows grows
  have resumes := stands.resumes longer shows.bytes fits
  obtain ⟨⟨raw, header, parsed⟩, resumed⟩ := stands.resume wellFormed longer shows.bytes shows.seen fits
  have taken : call host content ino (some prior) look =
      (resumeScan host prior (fileOf content ino look.size look.length)).map some := by
    rw [call, scanConversationHeader, Option.filter_some, if_pos resumes]
  rw [taken, ScansTo, header]
  dsimp only
  rw [parsed]
  dsimp only
  cases folds : foldValues host (startFold host) (eventsOf host front) with
  | none =>
      rw [folds] at resumed
      rw [resumed, Option.map_none]
  | some _ =>
      rw [folds] at resumed
      obtain ⟨next, given, stands', same⟩ := resumed
      exact ⟨next, by rw [given, Option.map_some], stands', same⟩

/-- Two scans of one front differ in nothing that is shown. -/
theorem Stands.headerOfScan_eq {first second : HeaderScan Amount} (stands : Stands host ino front first)
    (stands' : Stands host ino front second) (same : first.metadata = second.metadata) :
    headerOfScan first = headerOfScan second := by
  have folded : first.toFolded = second.toFolded := Option.some.inj (stands.folded.symm.trans stands'.folded)
  rw [headerOfScan, headerOfScan, same, folded]

/-- What two calls on one front say is the same. -/
theorem ScansTo.cases (scanned : ScansTo host ino front first) (scanned' : ScansTo host ino front second) :
    first = none ∧ second = none ∨ first = some none ∧ second = some none ∨
      ∃ scan other, first = some (some scan) ∧ second = some (some other) ∧ Stands host ino front scan ∧
        Stands host ino front other ∧ scan.metadata = other.metadata := by
  rw [ScansTo] at scanned scanned'
  cases header : headerOf host front with
  | none =>
      rw [header] at scanned scanned'
      exact .inr (.inl ⟨scanned, scanned'⟩)
  | some raw =>
      rw [header] at scanned scanned'
      dsimp only at scanned scanned'
      rcases parsed : parseMeta host raw with - | - | metadata
      · rw [parsed] at scanned scanned'
        exact .inl ⟨scanned, scanned'⟩
      · rw [parsed] at scanned scanned'
        exact .inr (.inl ⟨scanned, scanned'⟩)
      rw [parsed] at scanned scanned'
      dsimp only at scanned scanned'
      cases folds : foldValues host (startFold host) (eventsOf host front) with
      | none =>
          rw [folds] at scanned scanned'
          exact .inl ⟨scanned, scanned'⟩
      | some folded =>
          rw [folds] at scanned scanned'
          obtain ⟨scan, given, stands, parsed⟩ := scanned
          obtain ⟨other, given', stands', parsed'⟩ := scanned'
          exact .inr (.inr ⟨scan, other, given, given', stands, stands', parsed.trans parsed'.symm⟩)

theorem ScansTo.stands (scanned : ScansTo host ino front (some (some scan))) : Stands host ino front scan := by
  rcases scanned.cases scanned with ⟨thrown, -⟩ | ⟨missing, -⟩ | ⟨found, -, given, -, stands, -, -⟩
  · exact nomatch thrown
  · exact nomatch missing
  · obtain rfl := Option.some.inj (Option.some.inj given)
    exact stands

/-- Two priors that no later call can tell apart. -/
inductive Twins (host : Host Amount) (content : List Char) (ino reached : Nat) :
    Option (HeaderScan Amount) → Option (HeaderScan Amount) → Prop where
  | missing : Twins host content ino reached none none
  | scans {seen : Nat} {front : List Char} {torn : List UInt8} {first second : HeaderScan Amount}
      (within : seen ≤ reached) (shows : Shows content seen front torn) (stands : Stands host ino front first)
      (stands' : Stands host ino front second) (same : first.metadata = second.metadata) :
      Twins host content ino reached (some first) (some second)

theorem Twins.mono {later : Nat} {first second : Option (HeaderScan Amount)}
    (twins : Twins host content ino reached first second) (grows : reached ≤ later) :
    Twins host content ino later first second := by
  cases twins with
  | missing => exact .missing
  | scans within shows stands stands' same => exact .scans (within.trans grows) shows stands stands' same

/-- Two calls on one front say the same and leave twins. -/
theorem ScansTo.twins (scanned : ScansTo host ino front first) (scanned' : ScansTo host ino front second)
    (shows : Shows content seen front torn) (within : seen ≤ reached)
    (twins : Twins host content ino reached prior prior') :
    first.map (·.map headerOfScan) = second.map (·.map headerOfScan) ∧
      Twins host content ino reached (keep prior first) (keep prior' second) := by
  rcases scanned.cases scanned' with ⟨rfl, rfl⟩ | ⟨rfl, rfl⟩ | ⟨scan, other, rfl, rfl, stands, stands', same⟩
  · exact ⟨rfl, twins⟩
  · exact ⟨rfl, .missing⟩
  · refine ⟨?_, .scans within shows stands stands' same⟩
    rw [Option.map_some, Option.map_some, Option.map_some, Option.map_some, stands.headerOfScan_eq stands' same]

/-- Twins are answered alike. -/
theorem Twins.call (twins : Twins host content ino reached prior prior') (wellFormed : WellFormed host content)
    (grows : reached ≤ look.size) (fits : look.size ≤ look.length) :
    ∃ front torn seen, look.size ≤ seen ∧ seen ≤ look.length ∧ Shows content seen front torn ∧
      ScansTo host ino front (HeaderFile.call host content ino prior look) ∧
      ScansTo host ino front (HeaderFile.call host content ino prior' look) := by
  cases twins with
  | missing =>
      obtain ⟨front, torn, shows⟩ := exists_shows content look.length
      have scanned : ScansTo host ino front (HeaderFile.call host content ino none look) := call_none wellFormed shows
      exact ⟨front, torn, look.length, fits, le_rfl, shows, scanned, scanned⟩
  | scans within shows stands stands' same =>
      obtain ⟨front, torn, shows'⟩ := exists_shows content look.size
      exact ⟨front, torn, look.size, le_rfl, fits, shows',
        call_some wellFormed ⟨_, _, shows, stands⟩ (within.trans grows) fits shows',
        call_some wellFormed ⟨_, _, shows, stands'⟩ (within.trans grows) fits shows'⟩

theorem Twins.answers (twins : Twins host content ino reached prior prior') (wellFormed : WellFormed host content)
    (later : List Look) (grows : Grows reached later) :
    HeaderFile.answers host content ino prior later = HeaderFile.answers host content ino prior' later := by
  induction later generalizing reached prior prior' with
  | nil => rfl
  | cons look later ih =>
      obtain ⟨first, fits, rest⟩ := grows
      obtain ⟨front, torn, seen, -, within, shows, scanned, scanned'⟩ := twins.call wellFormed first fits
      obtain ⟨same, next⟩ := scanned.twins scanned' shows within (twins.mono (first.trans fits))
      rw [HeaderFile.answers, HeaderFile.answers, same, ih next rest]

/-- Every run keeps the scan of a front, or none. -/
theorem scanAll_twins (twins : Twins host content ino reached prior prior) (wellFormed : WellFormed host content)
    {looks : List Look} (grows : Grows reached (looks ++ [look])) :
    ∃ place, place ≤ look.size ∧ look.size ≤ look.length ∧
      Twins host content ino place (scanAll host content ino prior looks) (scanAll host content ino prior looks) := by
  induction looks generalizing reached prior with
  | nil => exact ⟨reached, grows.1, grows.2.1, twins⟩
  | cons first looks ih =>
      obtain ⟨begun, fits, rest⟩ := grows
      obtain ⟨front, torn, seen, -, within, shows, scanned, -⟩ := twins.call wellFormed begun fits
      exact ih (scanned.twins scanned shows within (twins.mono (begun.trans fits))).2 rest

/-- What is shown of a character that is cut off is in no line that is folded. -/
theorem filterMap_eventLines (wellFormed : WellFormed host content) (seen : Front content front torn) :
    (eventLines (Utf8.unitsOf front ++ Utf8.decode torn)).filterMap (jsonParse host.number) = eventsOf host front := by
  obtain ⟨before, last, parts, -, -, split, -⟩ := exists_append_of_splitOn '\n' front
  have tail : jsonParse host.number (Utf8.unitsOf last ++ Utf8.decode torn) = parseLine host last := by
    rcases seen.cut with rfl | ⟨shown, character, begins, foreign⟩
    · exact congrArg (jsonParse host.number) (List.append_nil _)
    · rw [shown, jsonParse_foreign (by decide), wellFormed.parseLine_cut begins foreign split]
  have empty : List.isEmpty ∘ Utf8.unitsOf = List.isEmpty := by
    funext line
    rw [Function.comp, Bool.eq_iff_iff, List.isEmpty_iff, List.isEmpty_iff, unitsOf_eq_nil_iff]
  rw [eventLines, splitOn_torn seen.newline_not_mem split, eventsOf, headerLines, split, List.dropWhile_append,
    List.dropWhile_append, List.dropWhile_map, empty]
  cases skipped : parts.dropWhile List.isEmpty with
  | nil =>
      cases last <;> cases Utf8.unitsOf _ ++ Utf8.decode torn <;> rfl
  | cons first more =>
      simp only [List.map_cons, List.isEmpty_cons, Bool.false_eq_true, if_false, List.cons_append, List.tail_cons,
        List.filterMap_append, List.filterMap_map, List.filterMap_cons, List.filterMap_nil, tail]
      rfl

theorem Stands.foldsOnce (stands : Stands host ino front scan) (wellFormed : WellFormed host content)
    (shows : Shows content seen front torn) : FoldsOnce host ((Utf8.encode content).take seen) scan := by
  rw [FoldsOnce, shows.bytes, decode_front, filterMap_eventLines wellFormed shows.seen]
  exact stands.folded

/-- Whole numbers are written as they are read. -/
def wholeNumbers : Host Nat where
  number text :=
    if read : text ≠ [] ∧ text.all isNumeric = true then ⟨text, read.1, List.all_eq_true.mp read.2⟩ else zeroNumber
  zero := 0
  add total value :=
    match value with
    | some (.number value) => total + value.text.foldl (fun total unit => 10 * total + (unit.toNat - 48)) 0
    | _ => total
  display _ := Utf16.ofString "[object Object]"

/-- A header behind an empty line, a blank line and two events. -/
def sampleFile : List Char :=
  "\n\x7b\"id\":\"c\",\"createdAt\":\"é\",\"model\":\"m\"\x7d \n \n".toList ++
    "\x7b\"type\":\"user.message\",\"ts\":\"1\",\"content\":[\x7b\"type\":\"text\",\"text\":\"a😀\"\x7d]\x7d\n".toList ++
    "\x7b\"type\":\"llm.response\",\"runId\":\"r\",\"ts\":\"2\",\"usage\":\x7b\"inputTokens\":3\x7d\x7d".toList

/-- The calls cut the file inside a character of the header, behind the header and inside a character of an event. -/
def sampleLooks : List Look := [⟨25, 25⟩, ⟨40, 40⟩, ⟨112, 113⟩]

end NimbleBrain.Conversation.HeaderFile
