import FauPortalen.Keys.Units
import FauPortalen.Membership.Vocabulary

/-! Encrypted fields: an envelope of version, nonce and ciphertext, bound by its associated data to
the FAU, table, column and row it was made for.
-/

namespace FauPortalen.Keys

open Foundations
open FauPortalen.Membership (Ciphertext)

-----------------------------------------------------------------------------------------
-- Associated data

/-- What a value is bound to. -/
structure Aad where
  tenantId : Uuid
  table : String
  column : String
  rowId : Uuid
deriving DecidableEq

def utf8 (text : String) : List UInt8 := text.toByteArray.data.toList

def Aad.toBytes (aad : Aad) : List UInt8 :=
  utf8 "fau-aad-v1" ++ aad.tenantId.bytes
    ++ lengthPrefixed (utf8 aad.table) ++ lengthPrefixed (utf8 aad.column) ++ aad.rowId.bytes

/-- The names' lengths fit the 32 bits they are written in. -/
structure Aad.Fits (aad : Aad) : Prop where
  table : (utf8 aad.table).length < 2 ^ 32
  column : (utf8 aad.column).length < 2 ^ 32

theorem toByteArray_utf8 (text : String) : (utf8 text).toByteArray = text.toByteArray := by
  refine ByteArray.ext (Array.toList_inj.mp ?_)
  rw [List.toList_data_toByteArray]
  rfl

theorem utf8_injective : Function.Injective utf8 := by
  intro text text' same
  refine String.toByteArray_inj.mp ?_
  rw [← toByteArray_utf8, same, toByteArray_utf8]

/-- Different bindings have different bytes: the ids have a fixed size, and each name is
written after its length.
-/
theorem Aad.toBytes_inj {aad aad' : Aad} (fits : aad.Fits) (fits' : aad'.Fits)
    (same : aad.toBytes = aad'.toBytes)
    : aad = aad' := by
  simp only [toBytes, List.append_assoc, List.append_cancel_left_eq] at same
  obtain ⟨tenants, rest⟩ := List.append_inj same (aad.tenantId.sized.trans aad'.tenantId.sized.symm)
  obtain ⟨tables, rest⟩ := lengthPrefixed_append_inj fits.table fits'.table rest
  obtain ⟨columns, rows⟩ := lengthPrefixed_append_inj fits.column fits'.column rest
  obtain ⟨⟨_, _⟩, _, _, ⟨_, _⟩⟩ := aad
  obtain ⟨⟨_, _⟩, _, _, ⟨_, _⟩⟩ := aad'
  cases tenants
  cases utf8_injective tables
  cases utf8_injective columns
  cases rows
  rfl

-----------------------------------------------------------------------------------------
-- The cipher

/-- 32 bytes. -/
structure DataKey where
  bytes : List UInt8
  sized : bytes.length = 32

/-- 24 bytes. -/
structure Nonce where
  bytes : List UInt8
  sized : bytes.length = 24

/-- XChaCha20-Poly1305, as the crate offers it. -/
structure Aead where
  encrypt : DataKey → Nonce → List UInt8 → List UInt8 → Option (List UInt8)
  decrypt : DataKey → Nonce → List UInt8 → List UInt8 → Option (List UInt8)

/-- An authenticated cipher opens what it sealed, under the exact key, nonce and associated data
alone. A sealed message carries a tag of 16 bytes.
-/
structure Aead.Authenticated (cipher : Aead) : Prop where
  opens : ∀ {key nonce message data body}, cipher.encrypt key nonce message data = some body →
    cipher.decrypt key nonce body data = some message
  binds : ∀ {key nonce message data body key' nonce' data' message'},
    cipher.encrypt key nonce message data = some body →
    cipher.decrypt key' nonce' body data' = some message' →
    key' = key ∧ nonce' = nonce ∧ data' = data
  tagged : ∀ {key nonce message data body}, cipher.encrypt key nonce message data = some body →
    16 ≤ body.length

inductive CryptoError
  | randomness
  | malformed
  | decrypt
deriving DecidableEq

def version : UInt8 := 1

def header : Nat := 1 + 24

section

variable (cipher : Aead)

/-- Encrypts a text under a nonce from the random source, which may fail. -/
def encrypt (random : Option Nonce) (key : DataKey) (aad : Aad) (plaintext : String)
    : Except CryptoError Ciphertext :=
  match random with
  | none => .error .randomness
  | some nonce =>
      match cipher.encrypt key nonce (utf8 plaintext) aad.toBytes with
      | none => .error .decrypt
      | some body => .ok ⟨version :: (nonce.bytes ++ body)⟩

/-- The bytes after the version of an envelope that is long enough. -/
def envelopeNonce (bytes : List UInt8) (long : ¬ bytes.length < header + 16) : Nonce where
  bytes := (bytes.drop 1).take 24
  sized := by
    unfold header at long
    rw [List.length_take, List.length_drop]
    omega

def decrypt (key : DataKey) (aad : Aad) (ct : Ciphertext) : Except CryptoError String :=
  if short : ct.bytes.length < header + 16 then .error .malformed
  else if ct.bytes.head? ≠ some version then .error .malformed
  else
    match cipher.decrypt key (envelopeNonce ct.bytes short) (ct.bytes.drop header)
        aad.toBytes with
    | none => .error .decrypt
    | some plain =>
        match String.fromUTF8? plain.toByteArray with
        | none => .error .malformed
        | some text => .ok text

end

-----------------------------------------------------------------------------------------
-- Round trip and binding

variable {cipher : Aead} {random : Option Nonce} {key key' : DataKey} {aad aad' : Aad}
  {ct : Ciphertext} {text text' : String}

theorem encrypt_eq_ok (made : encrypt cipher random key aad text = .ok ct)
    : ∃ nonce body, random = some nonce
        ∧ cipher.encrypt key nonce (utf8 text) aad.toBytes = some body
        ∧ ct = ⟨version :: (nonce.bytes ++ body)⟩ := by
  unfold encrypt at made
  split at made
  · cases made
  · next nonce =>
      split at made
      · cases made
      · next body sealed_ =>
          cases made
          exact ⟨nonce, body, rfl, sealed_, rfl⟩

/-- With a nonce and a cipher that seals there is an envelope. -/
theorem exists_encrypt {nonce : Nonce} {body : List UInt8}
    (sealed_ : cipher.encrypt key nonce (utf8 text) aad.toBytes = some body)
    : ∃ ct, encrypt cipher (some nonce) key aad text = .ok ct := by
  simp only [encrypt, sealed_]
  exact ⟨_, rfl⟩

/-- Both sides cut an envelope at the same places. -/
theorem decrypt_envelope (cipher : Aead) (key : DataKey) (aad : Aad) {nonce : Nonce}
    {body : List UInt8} (tagged : 16 ≤ body.length)
    : decrypt cipher key aad ⟨version :: (nonce.bytes ++ body)⟩
      = match cipher.decrypt key nonce body aad.toBytes with
        | none => .error .decrypt
        | some plain =>
            match String.fromUTF8? plain.toByteArray with
            | none => .error .malformed
            | some text => .ok text := by
  have long : ¬ (version :: (nonce.bytes ++ body)).length < header + 16 := by
    rw [List.length_cons, List.length_append, nonce.sized]
    unfold header
    omega
  have same : envelopeNonce (version :: (nonce.bytes ++ body)) long = nonce := by
    obtain ⟨bytes, sized⟩ := nonce
    simp only [envelopeNonce, List.drop_succ_cons, List.drop_zero, List.take_left' sized]
  have rest : (version :: (nonce.bytes ++ body)).drop header = body := by
    have : header = nonce.bytes.length + 1 := by rw [nonce.sized, header]
    rw [this, List.drop_succ_cons, List.drop_left]
  unfold decrypt
  rw [dif_neg long, if_neg (by simp), same, rest]

theorem fromUTF8?_utf8 (text : String) : String.fromUTF8? (utf8 text).toByteArray = some text := by
  rw [toByteArray_utf8]
  unfold String.fromUTF8?
  rw [dif_pos text.isValidUTF8]
  rfl

/-- What was encrypted is decrypted to the same text. -/
theorem decrypt_encrypt (authenticated : cipher.Authenticated)
    (made : encrypt cipher random key aad text = .ok ct)
    : decrypt cipher key aad ct = .ok text := by
  obtain ⟨nonce, body, _, sealed_, rfl⟩ := encrypt_eq_ok made
  rw [decrypt_envelope cipher key aad (authenticated.tagged sealed_), authenticated.opens sealed_]
  simp only [fromUTF8?_utf8]

/-- An envelope opens under the key and the binding it was made under, and no other. -/
theorem decrypt_binds (authenticated : cipher.Authenticated) (fits : aad.Fits) (fits' : aad'.Fits)
    (made : encrypt cipher random key aad text = .ok ct)
    (opened : decrypt cipher key' aad' ct = .ok text')
    : key' = key ∧ aad' = aad := by
  obtain ⟨nonce, body, _, sealed_, rfl⟩ := encrypt_eq_ok made
  rw [decrypt_envelope cipher key' aad' (authenticated.tagged sealed_)] at opened
  split at opened
  · cases opened
  · next plain found =>
      obtain ⟨keys, _, bindings⟩ := authenticated.binds sealed_ found
      exact ⟨keys, Aad.toBytes_inj fits' fits bindings⟩

/-- Ciphertexts and keys are bound: bindings have bytes of their own, an envelope opens to its
text under its own binding only, there is one whenever there is a nonce and the cipher seals, and
units have key names and rows of their own.
-/
theorem ciphertexts_bound (cipher : Aead) (authenticated : cipher.Authenticated)
    : (∀ aad aad' : Aad, aad.Fits → aad'.Fits → aad.toBytes = aad'.toBytes → aad = aad')
      ∧ (∀ random key key' aad aad' text ct, aad.Fits → aad'.Fits → aad' ≠ aad →
          encrypt cipher random key aad text = .ok ct →
            ∀ text', decrypt cipher key' aad' ct ≠ .ok text')
      ∧ (∀ random key aad text ct, encrypt cipher random key aad text = .ok ct →
          decrypt cipher key aad ct = .ok text)
      ∧ (∀ nonce key aad text body, cipher.encrypt key nonce (utf8 text) aad.toBytes = some body →
          ∃ ct, encrypt cipher (some nonce) key aad text = .ok ct)
      ∧ Function.Injective KeyUnit.keyName
      ∧ (∀ (unit : KeyUnit) (tenant : Uuid),
          ("fau-" ++ String.ofList tenant.text ++ "-").toList.isPrefixOf unit.keyName.toList = true
            ↔ unit.tenant = tenant)
      ∧ ∀ unit unit' : KeyUnit, unit.storage.isSome → unit.tenant = unit'.tenant →
          unit.storage = unit'.storage → unit = unit' := by
  refine ⟨fun _ _ => Aad.toBytes_inj, ?_, fun _ _ _ _ _ => decrypt_encrypt authenticated,
    fun _ _ _ _ _ => exists_encrypt, KeyUnit.keyName_injective, fun _ _ => KeyUnit.prefix_keyName_iff,
    fun _ _ stored tenants => KeyUnit.eq_of_storage tenants stored⟩
  intro random key key' aad aad' text ct fits fits' differ made text' opened
  exact differ (decrypt_binds authenticated fits fits' made opened).2

-----------------------------------------------------------------------------------------
-- A cipher that hides nothing and opens exactly

/-- The key, the nonce and the associated data as the transparent cipher writes them down. -/
def transparentHead (key : DataKey) (nonce : Nonce) (data : List UInt8) : List UInt8 :=
  key.bytes ++ (nonce.bytes ++ (List.replicate data.length 1 ++ 0 :: data))

def Aead.transparent : Aead where
  encrypt key nonce message data := some (transparentHead key nonce data ++ message)
  decrypt key nonce body data :=
    let head := transparentHead key nonce data
    if head.isPrefixOf body then some (body.drop head.length) else none

/-- What is written down is determined, part by part. -/
theorem transparentHead_inj {key key' : DataKey} {nonce nonce' : Nonce}
    {data data' rest rest' : List UInt8}
    (same : transparentHead key nonce data ++ rest = transparentHead key' nonce' data' ++ rest')
    : key = key' ∧ nonce = nonce' ∧ data = data' := by
  simp only [transparentHead, List.append_assoc, List.cons_append] at same
  obtain ⟨keys, same⟩ := List.append_inj same (key.sized.trans key'.sized.symm)
  obtain ⟨nonces, same⟩ := List.append_inj same (nonce.sized.trans nonce'.sized.symm)
  obtain ⟨lengths, same⟩ := append_separator_inj (by simp) (by simp) same
  have sizes := congrArg List.length lengths
  rw [List.length_replicate, List.length_replicate] at sizes
  obtain ⟨datas, _⟩ := List.append_inj same sizes
  obtain ⟨_, _⟩ := key
  obtain ⟨_, _⟩ := key'
  obtain ⟨_, _⟩ := nonce
  obtain ⟨_, _⟩ := nonce'
  cases keys
  cases nonces
  exact ⟨rfl, rfl, datas⟩

theorem Aead.transparent_authenticated : Aead.transparent.Authenticated where
  opens := by
    intro key nonce message data body sealed_
    cases sealed_
    simp [transparent]
  binds := by
    intro key nonce message data body key' nonce' data' message' sealed_ opened
    cases sealed_
    simp only [transparent] at opened
    split at opened
    · next starts =>
        obtain ⟨rest, same⟩ := List.isPrefixOf_iff_prefix.mp starts
        exact transparentHead_inj same
    · cases opened
  tagged := by
    intro key nonce message data body sealed_
    cases sealed_
    simp only [transparentHead, List.length_append, key.sized]
    omega

/-- A name is encrypted and round-trips under the transparent cipher. -/
theorem ciphertexts_bound_transparent
    : let id : Uuid := ⟨List.replicate 16 7, rfl⟩
      let key : DataKey := ⟨List.replicate 32 9, rfl⟩
      let nonce : Nonce := ⟨List.replicate 24 5, rfl⟩
      let aad : Aad := ⟨id, "groups", "encrypted_name", id⟩
      (∃ ct, encrypt .transparent (some nonce) key aad "Juleballkomiteen" = .ok ct)
        ∧ decrypt .transparent key aad
            ⟨version :: (nonce.bytes
              ++ (transparentHead key nonce aad.toBytes ++ utf8 "Juleballkomiteen"))⟩
          = .ok "Juleballkomiteen" := by
  obtain ⟨_, _, opens, seals, _⟩ :=
    ciphertexts_bound .transparent Aead.transparent_authenticated
  exact ⟨seals _ _ _ _ _ rfl, opens (some ⟨List.replicate 24 5, rfl⟩) _ _ _ _ rfl⟩

end FauPortalen.Keys
