import LeResponder.Issue

/-! Go 1.14's `encoding/base64` and `encoding/pem`, with which `getCertAndSave` writes its records and
their readers decode them. -/
namespace LeResponder

namespace Base64

/-- `encodeStd`, the alphabet of `StdEncoding`. -/
def encodeStd : GoString := lit "ABCDEFGHIJKLMNOPQRSTUVWXYZabcdefghijklmnopqrstuvwxyz0123456789+/"

def padChar : UInt8 := ch '='

def encodeChar (v : Nat) : UInt8 := encodeStd.getD v 0

/-- `enc.decodeMap[c]`: the position of `c` in the alphabet, as `NewEncoding` builds the map. -/
def decodeMap (c : UInt8) : Option Nat := encodeStd.indexOf? c

def isNewline (c : UInt8) : Bool := c == ch '\n' || c == ch '\r'

/-- `StdEncoding.Encode` of a whole input: each group of three bytes as four characters, a last
shorter group padded with `=`. -/
def encode : List UInt8 → GoString
  | [] => []
  | [b0] =>
    let val := b0.toNat * 65536
    [encodeChar (val / 262144 % 64), encodeChar (val / 4096 % 64), padChar, padChar]
  | [b0, b1] =>
    let val := b0.toNat * 65536 + b1.toNat * 256
    [encodeChar (val / 262144 % 64), encodeChar (val / 4096 % 64), encodeChar (val / 64 % 64), padChar]
  | b0 :: b1 :: b2 :: rest =>
    let val := b0.toNat * 65536 + b1.toNat * 256 + b2.toNat
    encodeChar (val / 262144 % 64) :: encodeChar (val / 4096 % 64) :: encodeChar (val / 64 % 64) ::
      encodeChar (val % 64) :: encode rest

/-- The bytes of a quantum of two to four values, the bits left over ignored. -/
def quantumBytes (dbuf : List Nat) : List UInt8 :=
  let val := dbuf.getD 0 0 * 262144 + dbuf.getD 1 0 * 4096 + dbuf.getD 2 0 * 64 + dbuf.getD 3 0
  [UInt8.ofNat (val / 65536), UInt8.ofNat (val / 256), UInt8.ofNat val].take (dbuf.length - 1)

/-- What `decodeQuantum` accepts after a `=` that ends a quantum of `n` values. -/
def padded (n : Nat) (rest : GoString) : Bool :=
  match n, rest.dropWhile isNewline with
  | 2, c :: more => c == padChar && (more.dropWhile isNewline).isEmpty
  | 3, more => more.isEmpty
  | _, _ => false

/-- `StdEncoding.Decode` from the values `dbuf` of the quantum begun, `\r` and `\n` skipped anywhere;
`none` is a `CorruptInputError`. -/
def decodeFrom (dbuf : List Nat) : GoString → Option (List UInt8)
  | [] => if dbuf = [] then some [] else none
  | c :: rest =>
    match decodeMap c with
    | some v =>
      if dbuf.length = 3 then (decodeFrom [] rest).map (quantumBytes (dbuf ++ [v]) ++ ·)
      else decodeFrom (dbuf ++ [v]) rest
    | none =>
      if isNewline c then decodeFrom dbuf rest
      else if c = padChar ∧ padded dbuf.length rest then some (quantumBytes dbuf)
      else none

/-- `StdEncoding.Decode`: the bytes written, or `none` on an error. -/
def decode (src : GoString) : Option (List UInt8) := decodeFrom [] src

theorem decodeMap_encodeChar : ∀ v : Fin 64, decodeMap (encodeChar v) = some v := by decide

@[simp] theorem decodeMap_encodeChar_mod (n : Nat) : decodeMap (encodeChar (n % 64)) = some (n % 64) :=
  decodeMap_encodeChar ⟨n % 64, Nat.mod_lt _ (by decide)⟩

@[simp] theorem decodeMap_padChar : decodeMap padChar = none := by decide
@[simp] theorem isNewline_padChar : isNewline padChar = false := by decide

theorem ofNat_eq {n : Nat} {b : UInt8} (low : n % 256 = b.toNat) : UInt8.ofNat n = b := by
  rcases b with ⟨⟨m, hm⟩⟩
  simp only [UInt8.ofNat]
  congr
  apply BitVec.eq_of_toNat_eq
  simpa using low

theorem quantumBytes_one (b0 : UInt8) :
    quantumBytes [b0.toNat * 65536 / 262144 % 64, b0.toNat * 65536 / 4096 % 64] = [b0] := by
  have h0 := b0.toBitVec.isLt
  simp only [quantumBytes, List.getD_cons_zero, List.getD_cons_succ, List.getD_nil, List.length_cons,
    List.length_nil, List.take, List.cons.injEq, and_true]
  exact ofNat_eq (by simp only [UInt8.toNat] at *; omega)

theorem quantumBytes_two (b0 b1 : UInt8) :
    quantumBytes [(b0.toNat * 65536 + b1.toNat * 256) / 262144 % 64, (b0.toNat * 65536 + b1.toNat * 256) / 4096 % 64,
      (b0.toNat * 65536 + b1.toNat * 256) / 64 % 64] = [b0, b1] := by
  have h0 := b0.toBitVec.isLt
  have h1 := b1.toBitVec.isLt
  simp only [quantumBytes, List.getD_cons_zero, List.getD_cons_succ, List.getD_nil, List.length_cons,
    List.length_nil, List.take, List.cons.injEq, and_true]
  refine ⟨ofNat_eq ?_, ofNat_eq ?_⟩ <;> simp only [UInt8.toNat] at * <;> omega

theorem quantumBytes_three (b0 b1 b2 : UInt8) :
    quantumBytes [(b0.toNat * 65536 + b1.toNat * 256 + b2.toNat) / 262144 % 64,
      (b0.toNat * 65536 + b1.toNat * 256 + b2.toNat) / 4096 % 64,
      (b0.toNat * 65536 + b1.toNat * 256 + b2.toNat) / 64 % 64,
      (b0.toNat * 65536 + b1.toNat * 256 + b2.toNat) % 64] = [b0, b1, b2] := by
  have h0 := b0.toBitVec.isLt
  have h1 := b1.toBitVec.isLt
  have h2 := b2.toBitVec.isLt
  simp only [quantumBytes, List.getD_cons_zero, List.getD_cons_succ,
    List.length_cons, List.length_nil, List.take, List.cons.injEq, and_true]
  refine ⟨ofNat_eq ?_, ofNat_eq ?_, ofNat_eq ?_⟩ <;> simp only [UInt8.toNat] at * <;> omega

theorem decode_encode (b : List UInt8) : decode (encode b) = some b := by
  induction b using encode.induct with
  | case1 => rfl
  | case2 b0 =>
    simp only [encode, decode, decodeFrom, decodeMap_encodeChar_mod, decodeMap_padChar, isNewline_padChar]
    simp [padded, quantumBytes_one]
  | case3 b0 b1 =>
    simp only [encode, decode, decodeFrom, decodeMap_encodeChar_mod, decodeMap_padChar, isNewline_padChar]
    simp [padded, quantumBytes_two]
  | case4 b0 b1 b2 rest ih =>
    simp only [decode] at ih
    simp only [encode, decode, decodeFrom, decodeMap_encodeChar_mod, ih]
    simp [quantumBytes_three]
theorem decodeMap_of_isNewline {c : UInt8} (nl : isNewline c = true) : decodeMap c = none := by
  simp only [isNewline, Bool.or_eq_true, beq_iff_eq] at nl
  rcases nl with rfl | rfl <;> decide

private theorem isEmpty_dropWhile (l : GoString) :
    (l.dropWhile isNewline).isEmpty = (l.filter (!isNewline ·)).isEmpty := by
  induction l with
  | nil => rfl
  | cons c l ih => by_cases nl : isNewline c <;> simp [List.dropWhile, List.filter, nl, ih]

private theorem dropWhile_filter (l : GoString) :
    (l.filter (!isNewline ·)).dropWhile isNewline = l.filter (!isNewline ·) := by
  induction l with
  | nil => rfl
  | cons c l ih => by_cases nl : isNewline c <;> simp [List.filter, nl, ih, List.dropWhile]

theorem padded_filter (n : Nat) (rest : GoString) : padded n rest = padded n (rest.filter (!isNewline ·)) := by
  induction rest with
  | nil => rfl
  | cons c rest ih =>
    by_cases nl : isNewline c
    · simpa [padded, List.dropWhile, List.filter, nl] using ih
    · rcases n with _ | _ | _ | _ | n <;>
        simp [padded, List.dropWhile, List.filter, nl, isEmpty_dropWhile, dropWhile_filter, List.filter_filter]

theorem decodeFrom_filter (dbuf : List Nat) (s : GoString) :
    decodeFrom dbuf s = decodeFrom dbuf (s.filter (!isNewline ·)) := by
  induction s generalizing dbuf with
  | nil => rfl
  | cons c rest ih =>
    by_cases nl : isNewline c
    · simp [decodeFrom, decodeMap_of_isNewline nl, nl, List.filter, ih]
    · rw [List.filter_cons_of_pos (by simpa using nl)]
      simp only [decodeFrom]
      split
      · rw [ih, ih]
      · rw [padded_filter, ← ih]

end Base64

namespace Pem

def pemStart : GoString := lit "\n-----BEGIN "
def pemEnd : GoString := lit "\n-----END "
def pemEndOfLine : GoString := lit "-----"
def pemLineLength : Nat := 64

/-- `bytes.Index(s, sep)`: where `sep` first occurs in `s`. -/
def index (sep : GoString) : GoString → Option Nat
  | [] => if sep = [] then some 0 else none
  | c :: rest => if sep.isPrefixOf (c :: rest) then some 0 else (index sep rest).map (· + 1)

def isBlank (c : UInt8) : Bool := c == ch ' ' || c == ch '\t'

def trimRight (s : GoString) : GoString := (s.reverse.dropWhile isBlank).reverse

def isAsciiSpace (c : UInt8) : Bool :=
  c == ch ' ' || c == ch '\t' || c == ch '\n' || c == ch '\r' || c == 11 || c == 12

/-- `bytes.TrimSpace`, for ASCII white space only. -/
def trimSpace (s : GoString) : GoString := ((s.dropWhile isAsciiSpace).reverse.dropWhile isAsciiSpace).reverse

/-- `getLine`: the first line without its line ending and trailing blanks, and the text after it. -/
def getLine (data : GoString) : GoString × GoString :=
  let line := data.takeWhile (· != ch '\n')
  match data.dropWhile (· != ch '\n') with
  | [] => (trimRight line, [])
  | _ :: rest => (trimRight (if line.getLast? = some (ch '\r') then line.dropLast else line), rest)

theorem getLine_snd_length_lt {data : GoString} (nonempty : data ≠ []) :
    (getLine data).2.length < data.length := by
  have whole := List.takeWhile_append_dropWhile (· != ch '\n') data
  unfold getLine
  split <;> rename_i rest₀ found
  · simpa [List.length_pos] using nonempty
  · have := congrArg List.length whole
    rw [found] at this
    simp only [List.length_append, List.length_cons] at this
    simp only
    omega

/-- The header loop of `pem.Decode`: the headers read and the text after them, or `none` when the
text runs out first. -/
def readHeaders (headers : List (GoString × GoString)) (rest : GoString) :
    Option (List (GoString × GoString) × GoString) :=
  if _empty : rest = [] then none
  else
    match index [ch ':'] (getLine rest).1 with
    | none => some (headers, rest)
    | some i =>
      let key := trimSpace ((getLine rest).1.take i)
      readHeaders ((key, trimSpace ((getLine rest).1.drop (i + 1))) :: headers.filter (·.1 != key))
        (getLine rest).2
termination_by rest.length
decreasing_by exact getLine_snd_length_lt _empty

/-- The text after the BEGIN marker. -/
def afterStart (data : GoString) : Option GoString :=
  if pemStart.tail.isPrefixOf data then some (data.drop (pemStart.length - 1))
  else (index pemStart data).map fun i => data.drop (i + pemStart.length)

def removeSpacesAndTabs (data : GoString) : GoString := data.filter fun b => !isBlank b

/-- `pem.Decode`, starting over after a block that does not check at most `fuel` times. -/
def decodeFuel : Nat → GoString → Option PemBlock × GoString
  | 0, data => (none, data)
  | fuel + 1, data =>
    let decodeError (rest : GoString) : Option PemBlock × GoString :=
      match decodeFuel fuel rest with
      | (none, _) => (none, data)
      | (some p, rest) => (some p, rest)
    match afterStart data with
    | none => (none, data)
    | some rest =>
      if ¬ pemEndOfLine.isSuffixOf (getLine rest).1 then decodeError (getLine rest).2
      else
        let typeLine := (getLine rest).1.take ((getLine rest).1.length - pemEndOfLine.length)
        match readHeaders [] (getLine rest).2 with
        | none => (none, data)
        | some (headers, rest) =>
          let ends : Option (Nat × Nat) :=
            if headers = [] ∧ pemEnd.tail.isPrefixOf rest then some (0, pemEnd.length - 1)
            else (index pemEnd rest).map fun i => (i, i + pemEnd.length)
          match ends with
          | none => decodeError rest
          | some (endIndex, endTrailerIndex) =>
            let endTrailerLen := typeLine.length + pemEndOfLine.length
            if (rest.drop endTrailerIndex).length < endTrailerLen then decodeError rest
            else if ¬ typeLine.isPrefixOf ((rest.drop endTrailerIndex).take endTrailerLen) ∨
                ¬ pemEndOfLine.isSuffixOf ((rest.drop endTrailerIndex).take endTrailerLen) then
              decodeError rest
            else if (getLine ((rest.drop endTrailerIndex).drop endTrailerLen)).1 ≠ [] then decodeError rest
            else
              match Base64.decode (removeSpacesAndTabs (rest.take endIndex)) with
              | none => decodeError rest
              | some bytes =>
                (some ⟨typeLine, headers, bytes⟩, (getLine (rest.drop (endIndex + pemEnd.length - 1))).2)

/-- `pem.Decode`: the first block of `data` and the text after it, or nil and `data`. -/
def decode (data : GoString) : Option PemBlock × GoString := decodeFuel data.length data

def writeHeader (k v : GoString) : GoString := k ++ lit ": " ++ v ++ lit "\n"

/-- The headers `pem.Encode` writes: `Proc-Type` first, the others by key, then a blank line. -/
def writeHeaders (headers : List (GoString × GoString)) : GoString :=
  if headers = [] then []
  else
    let procType := lit "Proc-Type"
    let first := match headers.lookup procType with
      | some v => writeHeader procType v
      | none => []
    let others := (headers.filter (·.1 != procType)).mergeSort fun a b => decide (a.1 ≤ b.1)
    first ++ others.flatMap (fun h => writeHeader h.1 h.2) ++ lit "\n"

/-- What `lineBreaker` passes on of the base64 text `s`: lines of 64 characters, each ended by a
newline. -/
def breakLines (s : GoString) : GoString :=
  if s.length ≤ pemLineLength then (if s = [] then [] else s ++ [ch '\n'])
  else s.take pemLineLength ++ ch '\n' :: breakLines (s.drop pemLineLength)
termination_by s.length
decreasing_by simp only [List.length_drop, pemLineLength] at *; omega

/-- `pem.EncodeToMemory`: nil when a header key holds a colon. -/
def encodeToMemory (b : PemBlock) : GoString :=
  if b.headers.any (fun h => h.1.contains (ch ':')) then []
  else
    pemStart.tail ++ b.type ++ lit "-----\n" ++ writeHeaders b.headers ++ breakLines (Base64.encode b.bytes) ++
      pemEnd.tail ++ b.type ++ lit "-----\n"

open Base64

theorem encode_char {b : List UInt8} {c : UInt8} (mem : c ∈ Base64.encode b) :
    c ≠ ch '-' ∧ c ≠ ch ':' ∧ isNewline c = false ∧ isBlank c = false := by
  have alphabet : ∀ v : Fin 64, encodeChar v ≠ ch '-' ∧ encodeChar v ≠ ch ':' ∧
      isNewline (encodeChar v) = false ∧ isBlank (encodeChar v) = false := by decide
  have plain := fun n => alphabet ⟨n % 64, Nat.mod_lt n (by decide)⟩
  have pad : padChar ≠ ch '-' ∧ padChar ≠ ch ':' ∧ isNewline padChar = false ∧ isBlank padChar = false := by
    decide
  induction b using Base64.encode.induct with
  | case1 => cases mem
  | case2 | case3 =>
    simp only [Base64.encode, List.mem_cons, List.not_mem_nil, or_false] at mem
    rcases mem with rfl | rfl | rfl | rfl <;> first | exact pad | exact plain _
  | case4 b0 b1 b2 rest ih =>
    simp only [Base64.encode, List.mem_cons] at mem
    rcases mem with rfl | rfl | rfl | rfl | later <;> first | exact ih later | exact plain _

@[simp] theorem breakLines_nil : breakLines [] = [] := by
  rw [breakLines]
  simp

theorem breakLines_short {s : GoString} (short : s.length ≤ pemLineLength) (nonempty : s ≠ []) :
    breakLines s = s ++ [ch '\n'] := by
  rw [breakLines, if_pos short, if_neg nonempty]

theorem breakLines_long {s : GoString} (long : ¬ s.length ≤ pemLineLength) :
    breakLines s = s.take pemLineLength ++ ch '\n' :: breakLines (s.drop pemLineLength) := by
  rw [breakLines, if_neg long]

theorem breakLines_mem {s : GoString} {c : UInt8} (mem : c ∈ breakLines s) : c ∈ s ∨ c = ch '\n' := by
  induction s using breakLines.induct with
  | case1 => simp at mem
  | case2 s short nonempty => simpa [breakLines_short short nonempty] using mem
  | case3 s long ih =>
    simp only [breakLines_long long, List.mem_append, List.mem_cons] at mem
    rcases mem with taken | newline | later
    · exact .inl (List.mem_of_mem_take taken)
    · exact .inr newline
    · exact (ih later).imp_left List.mem_of_mem_drop

theorem breakLines_filter (s : GoString) :
    (breakLines s).filter (!isNewline ·) = s.filter (!isNewline ·) := by
  induction s using breakLines.induct with
  | case1 => simp
  | case2 s short nonempty => simp [breakLines_short short nonempty, isNewline]
  | case3 s long ih =>
    rw [breakLines_long long, List.filter_append, List.filter_cons_of_neg (by simp [isNewline]), ih,
      ← List.filter_append, List.take_append_drop]

theorem breakLines_ends {s : GoString} (nonempty : s ≠ []) : ∃ init, breakLines s = init ++ [ch '\n'] := by
  induction s using breakLines.induct with
  | case1 => exact absurd rfl nonempty
  | case2 s short _ => exact ⟨s, breakLines_short short nonempty⟩
  | case3 s long ih =>
    obtain ⟨init, ends⟩ := ih (by simp only [pemLineLength] at long ⊢; simp; omega)
    exact ⟨s.take pemLineLength ++ ch '\n' :: init, by rw [breakLines_long long, ends]; simp⟩

theorem getLine_append_newline {line : GoString} (rest : GoString) (oneLine : ch '\n' ∉ line) :
    getLine (line ++ ch '\n' :: rest) =
      (trimRight (if line.getLast? = some (ch '\r') then line.dropLast else line), rest) := by
  have all : ∀ c ∈ line, (c != ch '\n') = true := fun c mem => by
    simpa using fun same : c = ch '\n' => oneLine (same ▸ mem)
  unfold getLine
  rw [List.takeWhile_append_of_pos all, List.dropWhile_append_of_pos all]
  simp

theorem trimRight_of_getLast {s : GoString} {c : UInt8} (last : s.getLast? = some c) (solid : isBlank c = false) :
    trimRight s = s := by
  obtain ⟨init, rfl⟩ := List.getLast?_eq_some_iff.mp last
  simp [trimRight, solid]

theorem index_singleton_none {c : UInt8} {l : GoString} (absent : c ∉ l) : index [c] l = none := by
  induction l with
  | nil => rfl
  | cons d l ih =>
    simp only [List.mem_cons, not_or] at absent
    simp [index, List.isPrefixOf, absent.1, ih absent.2]

theorem index_prefix {sep : GoString} (nonempty : sep ≠ []) (rest : GoString) :
    index sep (sep ++ rest) = some 0 := by
  obtain ⟨c, sep, rfl⟩ := List.exists_cons_of_ne_nil nonempty
  simp [index, List.isPrefixOf_iff_prefix]

theorem pemEnd_eq : pemEnd = ch '\n' :: ch '-' :: lit "----END " := rfl

theorem pemEnd_not_prefix {c d : UInt8} (u : GoString) (notDash : d ≠ ch '-') :
    pemEnd.isPrefixOf (c :: d :: u) = false := by
  rw [pemEnd_eq]
  simp only [List.isPrefixOf, beq_eq_false_iff_ne.mpr (Ne.symm notDash), Bool.false_and, Bool.and_false]

theorem index_pemEnd {body : GoString} (noDash : ∀ c ∈ body, c ≠ ch '-') (rest : GoString) :
    index pemEnd (body ++ pemEnd ++ rest) = some body.length := by
  induction body with
  | nil => exact index_prefix (by simp [pemEnd_eq]) rest
  | cons c body ih =>
    have notHere : pemEnd.isPrefixOf (c :: (body ++ pemEnd ++ rest)) = false := by
      cases body with
      | nil => exact pemEnd_not_prefix _ (by decide)
      | cons d body => exact pemEnd_not_prefix _ (noDash d (by simp))
    rw [List.cons_append, List.cons_append, index, notHere, if_neg Bool.false_ne_true,
      ih fun d mem => noDash d (List.mem_cons_of_mem _ mem)]
    rfl

theorem readHeaders_no_colon {rest : GoString} (nonempty : rest ≠ []) (noColon : ch ':' ∉ (getLine rest).1) :
    readHeaders [] rest = some ([], rest) := by
  rw [readHeaders, dif_neg nonempty, index_singleton_none noColon]

theorem afterStart_begin (rest : GoString) : afterStart (pemStart.tail ++ rest) = some rest := by
  simp [afterStart, List.isPrefixOf_iff_prefix]

theorem getLine_marker {pre : GoString} (oneLine : ch '\n' ∉ pre) (rest : GoString) :
    getLine (pre ++ pemEndOfLine ++ ch '\n' :: rest) = (pre ++ pemEndOfLine, rest) := by
  have last : (pre ++ pemEndOfLine).getLast? = some (ch '-') := by
    rw [List.getLast?_append_of_ne_nil _ (by decide)]
    rfl
  rw [getLine_append_newline rest (by simp [oneLine, pemEndOfLine]; decide), last, if_neg (by decide)]
  exact congrArg (·, rest) (trimRight_of_getLast last (by decide))

theorem getLine_fst_mem {data : GoString} {c : UInt8} (mem : c ∈ (getLine data).1) :
    c ∈ data.takeWhile (· != ch '\n') := by
  have trimmed : ∀ s : GoString, c ∈ trimRight s → c ∈ s := fun s h => by
    simp only [trimRight, List.mem_reverse] at h
    exact List.mem_reverse.mp ((List.dropWhile_sublist _).subset h)
  unfold getLine at mem
  split at mem
  · exact trimmed _ mem
  · have := trimmed _ mem
    split at this
    · exact List.dropLast_subset _ this
    · exact this

theorem takeWhile_mem_of_newline {init u : GoString} {c : UInt8}
    (mem : c ∈ (init ++ ch '\n' :: u).takeWhile (· != ch '\n')) : c ∈ init := by
  rw [List.takeWhile_append] at mem
  split at mem
  · simpa using mem
  · exact (List.takeWhile_sublist _).subset mem

theorem encodeToMemory_layout (type bytes rest : GoString) :
    encodeToMemory ⟨type, [], bytes⟩ ++ rest =
      pemStart.tail ++ (type ++ pemEndOfLine ++ ch '\n' ::
        (breakLines (Base64.encode bytes) ++ (pemEnd.tail ++ (type ++ pemEndOfLine ++ ch '\n' :: rest)))) := by
  simp [encodeToMemory, writeHeaders, show lit "-----\n" = pemEndOfLine ++ [ch '\n'] from rfl]

theorem pemEnd_cons : pemEnd = ch '\n' :: pemEnd.tail := rfl

theorem encode_ne_nil {bytes : GoString} (nonempty : bytes ≠ []) : Base64.encode bytes ≠ [] := by
  match bytes, nonempty with
  | [_], _ | [_, _], _ | _ :: _ :: _ :: _, _ => simp [Base64.encode]

/-- The base64 text of a non-empty input as `pem.Encode` wraps it, which `pem.Decode` reads back. -/
theorem breakLines_encode {bytes : List UInt8} (nonempty : bytes ≠ []) :
    ∃ init, breakLines (Base64.encode bytes) = init ++ [ch '\n'] ∧
      (∀ c ∈ init, c ≠ ch '-' ∧ c ≠ ch ':' ∧ isBlank c = false) ∧
      Base64.decode (removeSpacesAndTabs init) = some bytes := by
  obtain ⟨init, ends⟩ := breakLines_ends (encode_ne_nil nonempty)
  have initChars : ∀ c ∈ init, c ≠ ch '-' ∧ c ≠ ch ':' ∧ isBlank c = false := by
    intro c mem
    rcases breakLines_mem (ends ▸ List.mem_append_left _ mem) with chars | rfl
    · exact let ⟨dash, colon, _, blank⟩ := encode_char chars; ⟨dash, colon, blank⟩
    · decide
  refine ⟨init, ends, initChars, ?_⟩
  have noBlank : removeSpacesAndTabs init = init :=
    List.filter_eq_self.mpr fun c mem => by simp [(initChars c mem).2.2]
  have clean : (Base64.encode bytes).filter (!isNewline ·) = Base64.encode bytes :=
    List.filter_eq_self.mpr fun c mem => by simp [(encode_char mem).2.2.1]
  have newline : [ch '\n'].filter (!isNewline ·) = [] := by decide
  have lines := breakLines_filter (Base64.encode bytes)
  rw [ends, List.filter_append, clean, newline, List.append_nil] at lines
  rw [noBlank, Base64.decode, decodeFrom_filter, lines]
  exact Base64.decode_encode bytes

theorem endTrailer_checks (type rest : GoString) :
    ¬ (type ++ pemEndOfLine ++ ch '\n' :: rest).length < type.length + pemEndOfLine.length ∧
    ((type ++ pemEndOfLine ++ ch '\n' :: rest).take (type.length + pemEndOfLine.length) = type ++ pemEndOfLine) ∧
    (getLine ((type ++ pemEndOfLine ++ ch '\n' :: rest).drop (type.length + pemEndOfLine.length))).1 = [] := by
  refine ⟨by simp, by rw [← List.length_append, List.take_left], ?_⟩
  rw [← List.length_append, List.drop_left]
  rfl

theorem decode_encodeToMemory {type : GoString} (oneLine : ch '\n' ∉ type) (noColon : ch ':' ∉ type)
    (bytes rest : GoString) : decode (encodeToMemory ⟨type, [], bytes⟩ ++ rest) = (some ⟨type, [], bytes⟩, rest) := by
  rw [encodeToMemory_layout, decode]
  obtain ⟨fuel, hfuel⟩ : ∃ fuel, (pemStart.tail ++ (type ++ pemEndOfLine ++ ch '\n' ::
      (breakLines (Base64.encode bytes) ++ (pemEnd.tail ++ (type ++ pemEndOfLine ++ ch '\n' :: rest))))).length =
      fuel + 1 := ⟨_, (Nat.succ_pred_eq_of_pos (by simp only [List.length_append, List.length_cons]; omega)).symm⟩
  rw [hfuel, decodeFuel]
  have suffix : pemEndOfLine.isSuffixOf (type ++ pemEndOfLine) = true :=
    List.isSuffixOf_iff_suffix.mpr (List.suffix_append _ _)
  have starts : type.isPrefixOf (type ++ pemEndOfLine) = true :=
    List.isPrefixOf_iff_prefix.mpr (List.prefix_append _ _)
  have typeLine : (type ++ pemEndOfLine).take ((type ++ pemEndOfLine).length - pemEndOfLine.length) = type := by
    simp
  obtain ⟨long, taken, ended⟩ := endTrailer_checks type rest
  simp only [afterStart_begin, getLine_marker oneLine, suffix, typeLine, not_true_eq_false, if_false]
  rcases eq_or_ne bytes [] with rfl | nonempty
  · have endLine : ch '\n' ∉ pemEnd.tail ++ type := by simp [oneLine, pemEnd_eq]; decide
    rw [Base64.encode, breakLines_nil, List.nil_append, readHeaders_no_colon (by simp [pemEnd_eq]) (fun mem => ?_)]
    · have start : pemEnd.tail.isPrefixOf (pemEnd.tail ++ (type ++ pemEndOfLine ++ ch '\n' :: rest)) = true :=
        List.isPrefixOf_iff_prefix.mpr (List.prefix_append _ _)
      simp only [start, and_self, if_true, ← List.length_tail, List.drop_left, long, taken, starts, suffix,
        ended, if_false, not_true_eq_false, or_self, ne_eq, not_true_eq_false, List.take_zero, Nat.zero_add]
      rw [getLine_marker oneLine]
      rfl
    · rw [← List.append_assoc, ← List.append_assoc, getLine_marker endLine rest] at mem
      simp only [List.mem_append] at mem
      rcases mem with (dash | colon) | dash
      · exact absurd dash (by decide)
      · exact noColon colon
      · exact absurd dash (by decide)
  · obtain ⟨init, ends, initChars, decoded⟩ := breakLines_encode nonempty
    have layout : breakLines (Base64.encode bytes) ++ (pemEnd.tail ++ (type ++ pemEndOfLine ++ ch '\n' :: rest)) =
        init ++ pemEnd ++ (type ++ pemEndOfLine ++ ch '\n' :: rest) := by
      rw [ends, pemEnd_cons]
      simp
    rw [layout, readHeaders_no_colon (by simp) (fun mem => ?_)]
    · have notStart : pemEnd.tail.isPrefixOf (init ++ pemEnd ++ (type ++ pemEndOfLine ++ ch '\n' :: rest)) = false := by
        cases init with
        | nil => rfl
        | cons d init =>
          rw [show pemEnd.tail = ch '-' :: lit "----END " from rfl]
          simp only [List.cons_append, List.isPrefixOf,
            beq_eq_false_iff_ne.mpr (Ne.symm (initChars d (List.mem_cons_self _ _)).1), Bool.false_and]
      have last : (init ++ pemEnd ++ (type ++ pemEndOfLine ++ ch '\n' :: rest)).drop (init.length + pemEnd.length - 1) =
          (ch ' ' :: type) ++ pemEndOfLine ++ ch '\n' :: rest := by
        rw [List.append_assoc, show init.length + pemEnd.length - 1 = init.length + 9 from rfl, List.drop_append]
        rfl
      have endOfLine : ch '\n' ∉ ch ' ' :: type := by simp [oneLine]; decide
      have trailerAt : (init ++ pemEnd ++ (type ++ pemEndOfLine ++ ch '\n' :: rest)).drop (init.length + pemEnd.length) =
          type ++ pemEndOfLine ++ ch '\n' :: rest := by
        rw [← List.length_append, List.drop_left]
      have before : (init ++ pemEnd ++ (type ++ pemEndOfLine ++ ch '\n' :: rest)).take init.length = init := by
        rw [List.append_assoc, List.take_left]
      simp only [notStart, and_false, if_false, Bool.false_eq_true, index_pemEnd (fun c mem => (initChars c mem).1),
        Option.map_some', trailerAt, before, long, taken, starts, suffix, ended,
        not_true_eq_false, or_self, ne_eq, decoded, last, getLine_marker endOfLine]
    · rw [List.append_assoc, pemEnd_cons, List.cons_append] at mem
      exact (initChars _ (takeWhile_mem_of_newline (getLine_fst_mem mem))).2.1 rfl

/-- What successive calls of `pem.Decode` read from `data`: `blocks` in order, then nothing. -/
def DecodesTo : GoString → List PemBlock → Prop
  | data, [] => (decode data).1 = none
  | data, b :: bs => ∃ rest, decode data = (some b, rest) ∧ DecodesTo rest bs

theorem decodesTo_flatMap {type : GoString} (oneLine : ch '\n' ∉ type) (noColon : ch ':' ∉ type)
    (chain : List (List UInt8)) :
    DecodesTo (chain.flatMap fun b => encodeToMemory ⟨type, [], b⟩) (chain.map (⟨type, [], ·⟩)) := by
  induction chain with
  | nil => rfl
  | cons b rest ih => exact ⟨_, decode_encodeToMemory oneLine noColon b _, ih⟩

end Pem

/-- The library as Go links it: this module's PEM codec and an arbitrary `x509.ParseCertificate`. -/
def goCertLib (parseCertificate : List UInt8 → Except Err Certificate) : CertLib where
  pemDecode := Pem.decode
  encodeToMemory := Pem.encodeToMemory
  parseCertificate := parseCertificate

theorem decode_certificateBlock (bytes : List UInt8) :
    Pem.decode (Pem.encodeToMemory ⟨lit "CERTIFICATE", [], bytes⟩) = (some ⟨lit "CERTIFICATE", [], bytes⟩, []) := by
  simpa using Pem.decode_encodeToMemory (by decide) (by decide) bytes []

/-- The record `getCertAndSave` writes reads back as written: one `CERTIFICATE` block of `cert`, the
blocks of `roots` in order, one `RSA PRIVATE KEY` block; `renewCertIfNeeded` parses exactly `cert`. -/
theorem issued_record_reads_back (dc : DaemonConf) (parseCertificate : List UInt8 → Except Err Certificate)
    (hostname cs : GoString) (pkey : RsaKey) (cert : List UInt8) (roots : List (List UInt8)) :
    let record := issuedRecord dc (goCertLib parseCertificate) hostname cs pkey cert roots
    Pem.decode record.certificate = (some ⟨lit "CERTIFICATE", [], cert⟩, []) ∧
      Pem.DecodesTo record.ca (roots.map (⟨lit "CERTIFICATE", [], ·⟩)) ∧
      Pem.decode record.privateKey = (some ⟨lit "RSA PRIVATE KEY", [], pkey.pkcs1⟩, []) ∧
      ∀ now₁ now₂, Due dc (goCertLib parseCertificate) record now₁ now₂ ↔
        ∃ pc, parseCertificate cert = .ok pc ∧ now₁ ≤ pc.notAfter ∧ pc.notAfter < now₂ + dc.window.toInt :=
  ⟨decode_certificateBlock cert, Pem.decodesTo_flatMap (by decide) (by decide) roots,
    by simpa using Pem.decode_encodeToMemory (by decide) (by decide) pkey.pkcs1 [],
    fun now₁ now₂ => by simp [Due, issuedRecord, goCertLib, decode_certificateBlock]⟩

end LeResponder
