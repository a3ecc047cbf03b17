import Mathlib.Data.List.Basic

/-! Go strings as bytes, `encoding/hex`, and the codec between a hostname and the CredHub path
of its record; hostnames are arbitrary byte strings. -/
namespace LeResponder

/-- A Go `string`: any sequence of bytes. -/
abbrev GoString := List UInt8

/-- The bytes of a literal of the source, UTF-8 encoded as Go stores them. -/
def lit (s : String) : GoString := s.toList.flatMap String.utf8EncodeChar

/-- A byte literal such as `'0'` in Go source. -/
def ch (c : Char) : UInt8 := c.toNat.toUInt8

def hextable : GoString := lit "0123456789abcdef"

/-- `hex.EncodeToString`: the high nibble's digit, then the low nibble's, for every byte. -/
def encodeToString : GoString → GoString
  | [] => []
  | v :: rest => hextable.getD (v >>> 4).toNat 0 :: hextable.getD (v &&& 0x0f).toNat 0 ::
      encodeToString rest

def fromHexChar (c : UInt8) : Option UInt8 :=
  if ch '0' ≤ c ∧ c ≤ ch '9' then some (c - ch '0')
  else if ch 'a' ≤ c ∧ c ≤ ch 'f' then some (c - ch 'a' + 10)
  else if ch 'A' ≤ c ∧ c ≤ ch 'F' then some (c - ch 'A' + 10)
  else none

inductive HexError where
  | invalidByte (c : UInt8)
  | length
  deriving DecidableEq, Repr

/-- `hex.DecodeString`: digits are read in pairs, either case accepted; a bad digit is reported
before an odd length. -/
def decodeString : GoString → Except HexError GoString
  | [] => .ok []
  | [a] => match fromHexChar a with
    | none => .error (.invalidByte a)
    | some _ => .error .length
  | a :: b :: rest => match fromHexChar a, fromHexChar b with
    | none, _ => .error (.invalidByte a)
    | some _, none => .error (.invalidByte b)
    | some x, some y => (decodeString rest).map ((x <<< 4 ||| y) :: ·)

def certsPrefix : GoString := lit "/certs/"

def pathFromHost (hostname : GoString) : GoString := certsPrefix ++ encodeToString hostname

/-- The first seven bytes are skipped without being compared with `/certs/`; a path that does
not decode names the empty hostname. -/
def hostFromPath (path : GoString) : GoString :=
  if path.length < certsPrefix.length then []
  else match decodeString (path.drop certsPrefix.length) with
    | .error _ => []
    | .ok b => b

theorem fromHexChar_hextable : ∀ n : Fin 16, fromHexChar (hextable.getD n 0) = some (UInt8.ofNat n) := by
  decide

set_option maxRecDepth 20000 in
private theorem nibbles_fin : ∀ f : Fin 256, (UInt8.mk ⟨f⟩ >>> 4).toNat < 16 ∧
    (UInt8.mk ⟨f⟩ &&& 0x0f).toNat < 16 ∧
    UInt8.ofNat (UInt8.mk ⟨f⟩ >>> 4).toNat <<< 4 ||| UInt8.ofNat (UInt8.mk ⟨f⟩ &&& 0x0f).toNat =
      UInt8.mk ⟨f⟩ := by
  decide

theorem nibbles (v : UInt8) : (v >>> 4).toNat < 16 ∧ (v &&& 0x0f).toNat < 16 ∧
    UInt8.ofNat (v >>> 4).toNat <<< 4 ||| UInt8.ofNat (v &&& 0x0f).toNat = v := by
  rcases v with ⟨⟨f⟩⟩
  exact nibbles_fin f

@[simp] theorem decodeString_encodeToString (b : GoString) :
    decodeString (encodeToString b) = .ok b := by
  induction b with
  | nil => rfl
  | cons v rest ih =>
    obtain ⟨high, low, whole⟩ := nibbles v
    simp only [encodeToString, decodeString, fromHexChar_hextable ⟨_, high⟩,
      fromHexChar_hextable ⟨_, low⟩, ih, whole]
    rfl

@[simp] theorem length_encodeToString (b : GoString) : (encodeToString b).length = 2 * b.length := by
  induction b with
  | nil => rfl
  | cons v rest ih => simp only [encodeToString, List.length_cons, ih]; omega

theorem hostFromPath_pathFromHost (hostname : GoString) : hostFromPath (pathFromHost hostname) = hostname := by
  simp [hostFromPath, pathFromHost]

theorem pathFromHost_injective : Function.Injective pathFromHost := fun a b same => by
  rw [← hostFromPath_pathFromHost a, same, hostFromPath_pathFromHost]

/-- Every hostname, whatever its bytes, is read back from the path of its record, so two
distinct hostnames never share a record path. -/
theorem path_codec_round_trip :
    (∀ hostname, hostFromPath (pathFromHost hostname) = hostname) ∧
      ∀ h₁ h₂, h₁ ≠ h₂ → pathFromHost h₁ ≠ pathFromHost h₂ :=
  ⟨hostFromPath_pathFromHost, fun _ _ differ same => differ (pathFromHost_injective same)⟩

/-- `hostFromPath` reads a hostname from paths `pathFromHost` never writes: one whose first
seven bytes are not `/certs/`, and one with an uppercase hex digit. Each names a hostname whose
own path is another. -/
theorem hostFromPath_accepts_foreign_paths :
    hostFromPath (lit "/store/61") = lit "a" ∧ pathFromHost (lit "a") = lit "/certs/61" ∧
      hostFromPath (lit "/certs/6A") = lit "j" ∧ pathFromHost (lit "j") = lit "/certs/6a" := by
  decide

end LeResponder
