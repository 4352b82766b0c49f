import SwarmCraft.Core.Checked
import Mathlib.Data.List.DropRight

/-!
# Where a package comes from, as a hint

The source of a package travels inside the provider hint of a requirement, as the hexadecimal
digits of its postcard bytes. Postcard is a parameter with its round trip, the crate `hex` one with
what its documentation says of upper and lower case, and the wire copy of the source type is
identified with the type. `hex::decode` reads digits in either case, so a hint has more than one
spelling.
-/

namespace SwarmCraft

open Checked

/-- `char::is_whitespace`: the Unicode property `White_Space`. -/
def isWhitespace (c : Char) : Bool :=
  let n := c.toNat
  (9 ≤ n && n ≤ 13) || n == 32 || n == 0x85 || n == 0xA0 || n == 0x1680 ||
    (0x2000 ≤ n && n ≤ 0x200A) || n == 0x2028 || n == 0x2029 || n == 0x202F || n == 0x205F ||
    n == 0x3000

/-- `str::trim`. -/
def trim (s : String) : String :=
  .ofList ((s.toList.dropWhile isWhitespace).rdropWhile isWhitespace)

/-- `str::to_ascii_lowercase`. -/
def toAsciiLowercase (s : String) : String := s.map Char.toLower

/-- Failures of the canonical modpack. -/
inductive CanonicalModpackError where
  | unsupportedManifestVersion (version : Nat)
  | ambiguousVersion (label : String)
  | invalidPackage (detail : String)
  | missingRequiredDependency (key : String)
  | incompatibleDependency (key : String)
  | duplicatePackage (key : String)
  | invalidProviderHash (detail : String)
  | malformedProviderHint (detail : String)
  | encode (detail : String)
  deriving DecidableEq

/-- The providers of packages. -/
inductive CanonicalProviderV1 where
  | modrinth
  | curseForge
  deriving DecidableEq

/-- How a package depends on another. -/
inductive CanonicalDependencyKindV1 where
  | required
  | «optional»
  | incompatible
  | embedded
  deriving DecidableEq

/-- The hash algorithms of providers. -/
inductive CanonicalHashAlgorithmV1 where
  | sha512
  | sha256
  | sha1
  | md5
  deriving DecidableEq

/-- A digest that a provider gives for a file. -/
structure CanonicalProviderHashV1 where
  algorithm : CanonicalHashAlgorithmV1
  digestHex : String
  deriving DecidableEq

/-- Whether a file can be downloaded again. -/
inductive CanonicalRetrievalV1 where
  | providerDownload
  | manualRequired
  deriving DecidableEq

/-- A selected version of a project. -/
structure CanonicalPackageIdentityV1 where
  provider : CanonicalProviderV1
  projectId : String
  versionId : String
  deriving DecidableEq

/-- A dependency on a selected version. -/
structure CanonicalDependencyV1 where
  kind : CanonicalDependencyKindV1
  target : CanonicalPackageIdentityV1
  deriving DecidableEq

/-- A file of a provider, with what verifies it. -/
structure CanonicalProviderArtifactV1 where
  identity : CanonicalPackageIdentityV1
  fileName : String
  fileSize : Option Nat
  hashes : List CanonicalProviderHashV1
  retrieval : CanonicalRetrievalV1
  dependencies : List CanonicalDependencyV1
  deriving DecidableEq

/-- Where the bytes of a package come from. -/
inductive CanonicalArtifactSourceV1 where
  | provider (artifact : CanonicalProviderArtifactV1)
  | «local» (fileName : Option String)
  deriving DecidableEq

/-! ### Sources as hints -/

/-- Bytes as hexadecimal digits, by the crate `hex`. -/
structure Hex where
  /-- `hex::encode`. -/
  encode : List UInt8 → List Char
  /-- `hex::decode`, without its error. -/
  decode : List Char → Option (List UInt8)
  /-- Digits are written in lower case. -/
  encode_isUpper : ∀ {bytes}, ∀ c ∈ encode bytes, c.isUpper = false
  /-- Digits are read in either case, which may be mixed: in lower case they are those that are
  written for the bytes. -/
  decode_eq_some : ∀ {digits bytes},
    decode digits = some bytes ↔ digits.map Char.toLower = encode bytes

/-- `CANONICAL_SOURCE_HINT_PREFIX`. -/
def canonicalSourceHintPrefix : List Char := "swarmcraft-canonical-source-v1:".toList

/-- Postcard on the wire form of a source. -/
structure Postcard where
  /-- `postcard::to_allocvec`. -/
  toAllocvec : CanonicalArtifactSourceV1 → Except String (List UInt8)
  /-- `postcard::from_bytes`. -/
  fromBytes : List UInt8 → Except String CanonicalArtifactSourceV1
  /-- What was written is read back. -/
  fromBytes_toAllocvec : ∀ {source bytes}, toAllocvec source = .ok bytes →
    fromBytes bytes = .ok source

section

variable (H : Hex) (P : Postcard)

/-- `encode_canonical_source`. -/
def encodeCanonicalSource (source : CanonicalArtifactSourceV1) :
    Except CanonicalModpackError String := do
  let bytes ← (P.toAllocvec source).mapError CanonicalModpackError.encode
  return .ofList (canonicalSourceHintPrefix ++ H.encode bytes)

/-- `decode_canonical_source`. -/
def decodeCanonicalSource (hint : String) :
    Except CanonicalModpackError CanonicalArtifactSourceV1 := do
  let encoded ← required (canonicalSourceHintPrefix.isPrefixOf? hint.toList)
    (.malformedProviderHint "unsupported prefix")
  let bytes ← required (H.decode encoded) (.malformedProviderHint "invalid hex")
  (P.fromBytes bytes).mapError CanonicalModpackError.malformedProviderHint

end

/-! ### How a source is spelled -/

/-- A letter is its own lower case unless it is a capital. -/
theorem toLower_eq_self {c : Char} : c.toLower = c ↔ c.isUpper = false := by
  unfold Char.toLower Char.isUpper
  split_ifs with h
  · simp only [Char.ext_iff, decide_eq_false_iff_not, h, and_self, not_true_eq_false, iff_false]
    exact fun heq => absurd (UInt32.toNat_inj.mpr heq) (by grind)
  · simp only [decide_eq_false_iff_not, h, not_false_eq_true]

/-- Digits are in lower case exactly when there are no capitals in them. -/
theorem map_toLower_eq_self {digits : List Char} :
    digits.map Char.toLower = digits ↔ ∀ c ∈ digits, c.isUpper = false := by
  simpa only [toLower_eq_self, List.map_id_fun', id_eq] using
    List.map_inj_left (f := Char.toLower) (g := fun c => c) (l := digits)

namespace Hex

variable {H : Hex} {digits spelled : List Char} {bytes : List UInt8}

/-- What was written is read back. -/
theorem decode_encode : H.decode (H.encode bytes) = some bytes :=
  H.decode_eq_some.mpr (map_toLower_eq_self.mpr H.encode_isUpper)

/-- Digits without capitals are the ones written for the bytes they stand for. -/
theorem encode_of_decode (h : H.decode digits = some bytes)
    (hcase : ∀ c ∈ digits, c.isUpper = false) : H.encode bytes = digits := by
  rw [← H.decode_eq_some.mp h, map_toLower_eq_self.mpr hcase]

/-- Two spellings of the same digits stand for the same bytes. -/
theorem decode_congr (h : spelled.map Char.toLower = digits.map Char.toLower) :
    H.decode spelled = H.decode digits := by
  ext bytes
  rw [H.decode_eq_some, H.decode_eq_some, h]

end Hex

variable {H : Hex} {P : Postcard} {source : CanonicalArtifactSourceV1} {hint : String}

/-- What is read of a hint, step by step. -/
theorem decodeCanonicalSource_eq_ok : decodeCanonicalSource H P hint = .ok source ↔
    ∃ digits bytes, hint.toList = canonicalSourceHintPrefix ++ digits ∧
      H.decode digits = some bytes ∧ P.fromBytes bytes = .ok source := by
  simp only [decodeCanonicalSource, bind_eq_ok, required_eq_ok, mapError_eq_ok,
    List.isPrefixOf?_eq_some_iff_append_eq, @eq_comm _ hint.toList, exists_and_left]

/-- What is written for a source, step by step. -/
theorem encodeCanonicalSource_eq_ok : encodeCanonicalSource H P source = .ok hint ↔
    ∃ bytes, P.toAllocvec source = .ok bytes ∧
      hint.toList = canonicalSourceHintPrefix ++ H.encode bytes := by
  simp only [encodeCanonicalSource, bind_eq_ok, mapError_eq_ok, pure_eq_ok,
    ← String.toList_inj, String.toList_ofList, @eq_comm _ hint.toList]

/-- A hint that is written for a source is read back. -/
theorem decode_encodeCanonicalSource (h : encodeCanonicalSource H P source = .ok hint) :
    decodeCanonicalSource H P hint = .ok source := by
  obtain ⟨bytes, hwrite, hhint⟩ := encodeCanonicalSource_eq_ok.mp h
  exact decodeCanonicalSource_eq_ok.mpr
    ⟨_, bytes, hhint, H.decode_encode, P.fromBytes_toAllocvec hwrite⟩

/-- A hint decodes to a source exactly when it is the one that is written for it, unless it
spells digits in capitals or holds bytes that postcard does not write; and all spellings of the
same digits decode alike. -/
theorem decode_iff_encode_iff_plain (H : Hex) (P : Postcard) (hint : String) :
    ((∀ source, decodeCanonicalSource H P hint = .ok source ↔
        encodeCanonicalSource H P source = .ok hint) ↔
      ∀ digits bytes, hint.toList = canonicalSourceHintPrefix ++ digits →
        H.decode digits = some bytes → (∃ source, P.fromBytes bytes = .ok source) →
        (∀ c ∈ digits, c.isUpper = false) ∧ ∃ source, P.toAllocvec source = .ok bytes) ∧
    ∀ digits spelled : List Char, spelled.map Char.toLower = digits.map Char.toLower →
      decodeCanonicalSource H P (.ofList (canonicalSourceHintPrefix ++ spelled)) =
        decodeCanonicalSource H P (.ofList (canonicalSourceHintPrefix ++ digits)) := by
  refine ⟨⟨?_, ?_⟩, ?_⟩
  · rintro h digits bytes hhint hbytes ⟨source, hread⟩
    obtain ⟨written, hwrite, hsame⟩ := encodeCanonicalSource_eq_ok.mp
      ((h source).mp (decodeCanonicalSource_eq_ok.mpr ⟨digits, bytes, hhint, hbytes, hread⟩))
    obtain rfl := List.append_cancel_left (hhint.symm.trans hsame)
    rw [H.decode_encode, Option.some_inj] at hbytes
    subst hbytes
    exact ⟨H.encode_isUpper, source, hwrite⟩
  · intro h source
    refine ⟨fun hdecode => ?_, decode_encodeCanonicalSource⟩
    obtain ⟨digits, bytes, hhint, hbytes, hread⟩ := decodeCanonicalSource_eq_ok.mp hdecode
    obtain ⟨hcase, other, hwrite⟩ := h digits bytes hhint hbytes ⟨source, hread⟩
    have hsame : other = source := by
      simpa [hread] using (P.fromBytes_toAllocvec hwrite).symm
    subst hsame
    refine encodeCanonicalSource_eq_ok.mpr ⟨bytes, hwrite, ?_⟩
    rw [H.encode_of_decode hbytes hcase, hhint]
  · intro digits spelled hspelled
    have hdecode : ∀ rest, canonicalSourceHintPrefix.isPrefixOf?
        (String.ofList (canonicalSourceHintPrefix ++ rest)).toList = some rest := by
      simp [List.isPrefixOf?_eq_some_iff_append_eq]
    change (required _ _ >>= fun encoded => _) = (required _ _ >>= fun encoded => _)
    rw [hdecode, hdecode]
    change (required (H.decode spelled) _ >>= _) = (required (H.decode digits) _ >>= _)
    rw [H.decode_congr hspelled]

/-! ### A capital digit -/

/-- A byte as two digits. -/
def hexByte (byte : UInt8) : List Char :=
  [Nat.digitChar (byte.toNat / 16), Nat.digitChar (byte.toNat % 16)]

/-- The value of a digit, in either case. -/
def hexValue (c : Char) : Option Nat :=
  (List.range 16).find? fun n => Nat.digitChar n = c.toLower

/-- The bytes of pairs of digits. -/
def hexBytes : List Char → Option (List UInt8)
  | [] => some []
  | high :: low :: rest => do
    return .ofNat (16 * (← hexValue high) + (← hexValue low)) :: (← hexBytes rest)
  | [_] => none

/-- A digit has the value for which its lower case is written. -/
theorem hexValue_eq_some {c : Char} {n : Nat} :
    hexValue c = some n ↔ n < 16 ∧ Nat.digitChar n = c.toLower := by
  have hvalue {m : Nat} (h : hexValue c = some m) : m < 16 ∧ Nat.digitChar m = c.toLower :=
    ⟨List.mem_range.mp (List.mem_of_find?_eq_some h), by simpa using List.find?_some h⟩
  refine ⟨hvalue, fun h => ?_⟩
  have hsome : (hexValue c).isSome :=
    List.find?_isSome.mpr ⟨n, List.mem_range.mpr h.1, decide_eq_true h.2⟩
  obtain ⟨m, hm⟩ := Option.isSome_iff_exists.mp hsome
  have hinj : ∀ m n : Fin 16, Nat.digitChar m = Nat.digitChar n → m.val = n.val := by
    decide
  have hsame : m = n := hinj ⟨m, (hvalue hm).1⟩ ⟨n, h.1⟩ ((hvalue hm).2.trans h.2.symm)
  rw [← hsame]
  exact hm

/-- Digits stand for the bytes for which their lower case is written. -/
theorem hexBytes_eq_some {digits : List Char} {bytes : List UInt8} :
    hexBytes digits = some bytes ↔ digits.map Char.toLower = bytes.flatMap hexByte := by
  induction digits using hexBytes.induct generalizing bytes with
  | case1 => cases bytes <;> simp [hexBytes, hexByte]
  | case2 high low rest ih =>
    cases bytes with
    | nil => simp [hexBytes, Option.bind_eq_some_iff]
    | cons byte bytes =>
      have hbound := byte.toNat_lt
      simp only [hexBytes, Option.bind_eq_bind, Option.bind_eq_some_iff, Option.pure_def,
        Option.some.injEq, List.cons.injEq, hexValue_eq_some, ih, List.map_cons,
        List.flatMap_cons, hexByte, List.cons_append, List.nil_append]
      constructor
      · rintro ⟨m, ⟨hm, hhigh⟩, n, ⟨hn, hlow⟩, _, hrest, rfl, rfl⟩
        have hlt : 16 * m + n < 256 := by omega
        have hbyte : (UInt8.ofNat (16 * m + n)).toNat = 16 * m + n :=
          UInt8.toNat_ofNat_of_lt' hlt
        have hdiv : (16 * m + n) / 16 = m := by omega
        have hmod : (16 * m + n) % 16 = n := by omega
        rw [hbyte, hdiv, hmod]
        exact ⟨hhigh.symm, hlow.symm, hrest⟩
      · rintro ⟨hhigh, hlow, hrest⟩
        refine ⟨byte.toNat / 16, ⟨by omega, hhigh.symm⟩, byte.toNat % 16, ⟨by omega, hlow.symm⟩,
          bytes, hrest, ?_, rfl⟩
        rw [Nat.div_add_mod, UInt8.ofNat_toNat]
  | case3 c => cases bytes <;> simp [hexBytes, hexByte]

/-- Digits in pairs. -/
def Hex.pairs : Hex where
  encode bytes := bytes.flatMap hexByte
  decode := hexBytes
  encode_isUpper := by
    intro bytes c hc
    have hlower : ∀ n : Fin 16, (Nat.digitChar n).isUpper = false := by
      decide
    obtain ⟨byte, -, hc⟩ := List.mem_flatMap.mp hc
    have hbound := byte.toNat_lt
    simp only [hexByte, List.mem_cons, List.not_mem_nil, or_false] at hc
    rcases hc with rfl | rfl
    · exact hlower ⟨byte.toNat / 16, by omega⟩
    · exact hlower ⟨byte.toNat % 16, by omega⟩
  decode_eq_some := hexBytes_eq_some

/-- Postcard on one source alone. -/
def Postcard.single (source : CanonicalArtifactSourceV1) (bytes : List UInt8) : Postcard where
  toAllocvec other := if other = source then .ok bytes else .error ""
  fromBytes other := if other = bytes then .ok source else .error ""
  fromBytes_toAllocvec h := by
    split at h <;> simp_all

/-- The last byte of a local file named `j` is written `6a`, and is read from `6A` as well. -/
theorem capital_digit_decodes :
    let bytes := [1, 1, 1, 0x6a]
    let P := Postcard.single (.local (some "j")) bytes
    Hex.pairs.encode bytes = "0101016a".toList ∧
      ∀ H : Hex, H.encode bytes = "0101016a".toList →
        encodeCanonicalSource H P (.local (some "j")) =
            .ok "swarmcraft-canonical-source-v1:0101016a" ∧
          decodeCanonicalSource H P "swarmcraft-canonical-source-v1:0101016A" =
            .ok (.local (some "j")) := by
  intro bytes P
  refine ⟨by decide +kernel, fun H hwritten => ⟨?_, ?_⟩⟩
  · refine encodeCanonicalSource_eq_ok.mpr ⟨bytes, by decide +kernel, ?_⟩
    rw [hwritten]
    decide +kernel
  · refine decodeCanonicalSource_eq_ok.mpr ⟨"0101016A".toList, bytes, by decide +kernel, ?_,
      by decide +kernel⟩
    rw [H.decode_eq_some, hwritten]
    decide +kernel

end SwarmCraft
