import Doupro.Go.Base64
import Doupro.Go.Errors

/-!
# Encrypted secrets

A secret is stored behind a prefix, and whatever starts with the prefix is taken for one that is
encrypted already.
-/

namespace Doupro.Secrets

/-- A `cipher.AEAD` under one key. It opens what it sealed and rejects everything else. -/
structure AEAD where
  nonceSize : Nat
  sealBytes : (nonce plaintext : Bytes) → Bytes
  openBytes : (nonce sealed : Bytes) → Option Bytes
  openBytes_sealBytes : ∀ nonce plaintext, nonce.length = nonceSize →
    openBytes nonce (sealBytes nonce plaintext) = some plaintext
  rejects : ∀ nonce sealed plaintext, openBytes nonce sealed = some plaintext →
    sealed = sealBytes nonce plaintext

abbrev AEAD.Nonce (A : AEAD) := { nonce : Bytes // nonce.length = A.nonceSize }

/-- What `rand.Read` fills a nonce with. It never returns an error. -/
abbrev Random := (A : AEAD) → A.Nonce

/-- `prefix`. -/
def marker : Bytes := bytesOf "enc:v1:"

/-- `IsEncrypted`. -/
def isEncrypted (value : Bytes) : Bool := marker.isPrefixOf value

/-- The text that stands for sealed bytes. -/
def sealedText (bytes : Bytes) : Bytes := marker ++ Base64.encodeToString bytes

variable {A : AEAD}

/-- `Cipher.Encrypt`, given what reading a nonce yields. -/
def encrypt (A : AEAD) (nonce : Except GoError A.Nonce) (plaintext : Bytes) : Except GoError Bytes :=
  if isEncrypted plaintext then .ok plaintext
  else match nonce with
    | .error err => .error (.wrap "generate encryption nonce" err)
    | .ok nonce => .ok (sealedText (nonce.val ++ A.sealBytes nonce.val plaintext))

/-- `Cipher.Decrypt`. -/
def decrypt (A : AEAD) (value : Bytes) : Except GoError Bytes :=
  if isEncrypted value then
    match Base64.decodeString (value.drop marker.length) with
    | none => .error (.wrap "decode encrypted secret" (.external "illegal base64 data"))
    | some raw =>
      if raw.length < A.nonceSize then .error (.new "encrypted secret is truncated")
      else match A.openBytes (raw.take A.nonceSize) (raw.drop A.nonceSize) with
        | none => .error (.new "decrypt secret: wrong key or corrupted ciphertext")
        | some plain => .ok plain
  else .ok value

@[simp] theorem isEncrypted_sealedText (bytes : Bytes) : isEncrypted (sealedText bytes) = true := by
  simp [isEncrypted, sealedText]

theorem encrypt_of_isEncrypted (nonce : Except GoError A.Nonce) {plaintext : Bytes}
    (h : isEncrypted plaintext = true) : encrypt A nonce plaintext = .ok plaintext := by
  simp [encrypt, h]

theorem decrypt_of_plain {value : Bytes} (h : isEncrypted value = false) :
    decrypt A value = .ok value := by
  simp [decrypt, h]

/-- What was sealed is read back. -/
theorem decrypt_sealed (nonce : A.Nonce) (plaintext : Bytes) :
    decrypt A (sealedText (nonce.val ++ A.sealBytes nonce.val plaintext)) = .ok plaintext := by
  have hraw : Base64.decodeString ((sealedText (nonce.val ++ A.sealBytes nonce.val plaintext)).drop
      marker.length) = some (nonce.val ++ A.sealBytes nonce.val plaintext) := by
    rw [sealedText, List.drop_left, Base64.decodeString_encodeToString]
  have hlength : ¬ (nonce.val ++ A.sealBytes nonce.val plaintext).length < A.nonceSize := by
    rw [List.length_append, nonce.property]
    omega
  have htake : (nonce.val ++ A.sealBytes nonce.val plaintext).take A.nonceSize = nonce.val :=
    List.take_left' nonce.property
  have hdrop : (nonce.val ++ A.sealBytes nonce.val plaintext).drop A.nonceSize =
      A.sealBytes nonce.val plaintext := List.drop_left' nonce.property
  unfold decrypt
  rw [if_pos (isEncrypted_sealedText _), hraw]
  simp only [if_neg hlength, htake, hdrop, A.openBytes_sealBytes _ _ nonce.property]

/-- A plaintext without the marker is stored as another text, which reads back as the plaintext. -/
theorem encrypt_plain {nonce : Except GoError A.Nonce} {plaintext stored : Bytes}
    (hplain : isEncrypted plaintext = false) (h : encrypt A nonce plaintext = .ok stored) :
    isEncrypted stored = true ∧ decrypt A stored = .ok plaintext := by
  unfold encrypt at h
  rw [if_neg (by simp [hplain])] at h
  cases nonce with
  | error err => cases h
  | ok nonce =>
    injection h with h
    subst h
    exact ⟨isEncrypted_sealedText _, decrypt_sealed nonce plaintext⟩

/-! ### Secrets of a store -/

/-- `Store.encryptSecret`. -/
def encryptSecret (secrets : Option AEAD) (random : Random) (value : Bytes) : Except GoError Bytes :=
  match secrets with
  | none => .error (.new "secret encryption is not configured")
  | some A => encrypt A (.ok (random A)) value

/-- `Store.decryptSecret`. -/
def decryptSecret (secrets : Option AEAD) (value : Bytes) : Except GoError Bytes :=
  if isEncrypted value then
    match secrets with
    | none => .error (.new "secret encryption is not configured")
    | some A => decrypt A value
  else .ok value

theorem decryptSecret_eq (A : AEAD) (value : Bytes) : decryptSecret (some A) value = decrypt A value := by
  unfold decryptSecret
  split
  · rfl
  · next h => exact (decrypt_of_plain (by simpa using h)).symm

/-- What a store with a key makes of a plaintext. -/
theorem encryptSecret_plain (A : AEAD) (random : Random) {value : Bytes}
    (h : isEncrypted value = false) : ∃ stored, encryptSecret (some A) random value = .ok stored ∧
      isEncrypted stored = true ∧ decrypt A stored = .ok value := by
  cases hstored : encrypt A (.ok (random A)) value with
  | error err => simp [encrypt, h] at hstored
  | ok stored => exact ⟨stored, hstored, encrypt_plain h hstored⟩

/-- A value without the marker, or one that the key opens. -/
def Readable (A : AEAD) (value : Bytes) : Prop := ∃ plain, decrypt A value = .ok plain

theorem readable_of_plain {value : Bytes} (h : isEncrypted value = false) : Readable A value :=
  ⟨value, decrypt_of_plain h⟩

theorem Readable.encrypted {random : Random} {value stored : Bytes}
    (h : encryptSecret (some A) random value = .ok stored) (hvalue : Readable A value) :
    Readable A stored := by
  cases hplain : isEncrypted value with
  | true =>
    rw [encryptSecret, encrypt_of_isEncrypted _ hplain] at h
    injection h with h
    exact h ▸ hvalue
  | false =>
    have h : encrypt A (.ok (random A)) value = .ok stored := h
    exact ⟨value, (encrypt_plain hplain h).2⟩

/-! ### A cipher to test with -/

/-- It seals by appending the nonce. -/
def tagged : AEAD where
  nonceSize := 2
  sealBytes nonce plaintext := plaintext ++ nonce
  openBytes nonce ciphertext :=
    if ciphertext.drop (ciphertext.length - nonce.length) = nonce
    then some (ciphertext.take (ciphertext.length - nonce.length)) else none
  openBytes_sealBytes := by
    intro nonce plaintext _
    simp
  rejects := by
    intro nonce ciphertext plaintext h
    split at h
    · next htail =>
      injection h with h
      conv_lhs => rw [← List.take_append_drop (ciphertext.length - nonce.length) ciphertext]
      rw [htail, h]
    · cases h

def zeroNonces : Random := fun A => ⟨List.replicate A.nonceSize 0, List.length_replicate⟩

end Doupro.Secrets
