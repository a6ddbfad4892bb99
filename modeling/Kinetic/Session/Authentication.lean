import Kinetic.Client.ByteBuffer
import Kinetic.Session.Outcomes
import Kinetic.Session.PackMessage
import Kinetic.Session.Unpack

namespace Kinetic
open Memory

/-- `KINETIC_HMAC_SHA1_LEN`, which is also `KINETIC_HMAC_MAX_LEN`. -/
def kineticHmacSha1Len : Nat := 20

/-- `KINETIC_PIN_MAX_LEN`. -/
def kineticPinMaxLen : Nat := 1024

/-- HMAC with SHA-1 as the OpenSSL library computes it from a key and all the bytes of the updates. -/
structure HmacSha1 where
  digest : List UInt8 → List UInt8 → List UInt8
  length : ∀ key hashed, (digest key hashed).length = kineticHmacSha1Len

structure HmacCtx where
  key : List UInt8
  hashed : List UInt8

/-- `HMAC_Update`. -/
def HmacCtx.update (ctx : HmacCtx) (bytes : List UInt8) : HmacCtx := { ctx with hashed := ctx.hashed ++ bytes }

/-- `HMAC_Final`. -/
def HmacCtx.final (mac : HmacSha1) (ctx : HmacCtx) : List UInt8 := mac.digest ctx.key ctx.hashed

inductive HmacAlgorithm
  | invalidHmacAlgorithm
  | hmacSha1
  deriving DecidableEq

structure KineticHMAC where
  algorithm : HmacAlgorithm
  len : Nat
  data : Nat → UInt8

/-- `Message.HMACauth`. -/
structure HmacAuth where
  hasIdentity : Bool
  identity : Int
  hasHmac : Bool
  hmac : BinaryData

/-- `Message.PINauth`. -/
structure PinAuth where
  hasPin : Bool
  pin : BinaryData

/-- The fields of a `Message`. -/
structure MessageFields where
  hasAuthtype : Bool
  authtype : AuthType
  hmacauth : Option HmacAuth
  pinauth : Option PinAuth
  hasCommandbytes : Bool
  commandbytes : BinaryData

/-- What authentication reads of a `KineticSessionConfig`. -/
structure AuthConfig where
  useSsl : Bool
  identity : Int
  hmacKey : BinaryData

/-- `KineticHMAC_Init`. -/
def kineticHMACInit : HmacAlgorithm → KineticHMAC
  | .hmacSha1 => ⟨.hmacSha1, kineticHmacSha1Len, fun _ => 0⟩
  | _ => ⟨.invalidHmacAlgorithm, 0, fun _ => 0⟩

/-- `KineticHMAC_Compute`. As everywhere in this module, `none` is a failing assertion. -/
def kineticHMACCompute (mac : HmacSha1) (order : ByteOrder) (hmac : KineticHMAC) (msg : MessageFields) (key : BinaryData) :
    Option KineticHMAC :=
  if hmac.len = 0 ∨ msg.hasCommandbytes = false ∨ msg.commandbytes.data.isNone ∨ msg.commandbytes.len = 0 then none
  else
    let lenNBO := kineticNBOFromHostU32 order (msg.commandbytes.len.toNat % 2 ^ 32)
    let ctx : HmacCtx := ⟨key.bytes, []⟩
    let ctx := ctx.update (uint32Bytes lenNBO order)
    let ctx := ctx.update msg.commandbytes.bytes
    let digest := ctx.final mac
    some { hmac with data := write hmac.data 0 digest, len := digest.length }

/-- `KineticHMAC_Populate`. -/
def kineticHMACPopulate (mac : HmacSha1) (order : ByteOrder) (msg : MessageFields) (key : BinaryData) : Option MessageFields := do
  let auth ← msg.hmacauth
  let data ← auth.hmac.data
  if key.data.isNone ∨ key.len = 0 then none
  else
    let hmac ← kineticHMACCompute mac order (kineticHMACInit .hmacSha1) msg key
    let copied := copy data 0 hmac.data hmac.len
    some { msg with hmacauth := some { auth with hmac := ⟨some copied, UInt64.ofNat hmac.len⟩, hasHmac := true } }

/-- The loop of `KineticHMAC_Validate`. -/
def hmacDifference (expected actual : Nat → UInt8) : Nat → Nat
  | 0 => 0
  | i + 1 => hmacDifference expected actual i ||| (expected i ^^^ actual i).toNat

/-- `KineticHMAC_Validate`. -/
def kineticHMACValidate (mac : HmacSha1) (order : ByteOrder) (msg : MessageFields) (key : BinaryData) : Option Bool :=
  if key.data.isNone ∨ key.len = 0 then none
  else if msg.hasAuthtype = false ∨ msg.authtype ≠ .hmacAuth then some false
  else
    match msg.hmacauth with
    | none => some false
    | some auth =>
      if auth.hasHmac = false then some false
      else
        match auth.hmac.data with
        | none => some false
        | some data =>
          if auth.hmac.len = 0 then some false
          else do
            let tempHMAC ← kineticHMACCompute mac order (kineticHMACInit .hmacSha1) msg key
            if auth.hmac.len.toNat = tempHMAC.len then some (hmacDifference data tempHMAC.data tempHMAC.len = 0)
            else some false

/-- The message points to an `HMACauth` for the session, whose array is `hmacData`. -/
def MessageFields.withHmacAuth (config : AuthConfig) (hmacData : Nat → UInt8) (msg : MessageFields) : MessageFields :=
  { msg with
    hmacauth := some ⟨true, config.identity, true, ⟨some hmacData, UInt64.ofNat kineticHmacSha1Len⟩⟩
    pinauth := none
    authtype := .hmacAuth
    hasAuthtype := true }

/-- `KineticAuth_PopulateHmac`, with the array `hmacData` of the request, to which the message will point. -/
def kineticAuthPopulateHmac (mac : HmacSha1) (order : ByteOrder) (config : AuthConfig) (hmacData : Nat → UInt8)
    (msg : MessageFields) : Option (KineticStatus × MessageFields) :=
  if config.hmacKey.data.isNone then some (.hmacRequired, msg)
  else if config.hmacKey.len.toNat ≤ kineticHmacSha1Len then do
    let msg ← kineticHMACPopulate mac order (msg.withHmacAuth config hmacData) config.hmacKey
    some (.success, msg)
  else none

/-- `KineticAuth_PopulatePin`. -/
def kineticAuthPopulatePin (config : AuthConfig) (msg : MessageFields) (pin : BinaryData) :
    Option (KineticStatus × MessageFields) :=
  if config.useSsl = false then some (.sslRequired, msg)
  else if pin.len.toNat ≤ kineticPinMaxLen ∧ (pin.len > 0 → pin.data.isSome) then
    some (.success,
      { msg with pinauth := some ⟨true, pin⟩, hmacauth := none, authtype := .pinAuth, hasAuthtype := true })
  else none

/-- `KineticRequest_PopulateAuthentication`. -/
def kineticRequestPopulateAuthentication (mac : HmacSha1) (order : ByteOrder) (config : AuthConfig) (hmacData : Nat → UInt8)
    (msg : MessageFields) : Option BinaryData → Option (KineticStatus × MessageFields)
  | some pin => kineticAuthPopulatePin config msg pin
  | none => kineticAuthPopulateHmac mac order config hmacData msg

/-- What a tag is computed from: the length of the command in network byte order and the command. -/
def hashedCommand (command : List UInt8) : List UInt8 := nboFromHostU32 command.length ++ command

/-- The tag that a message comes with. -/
def MessageFields.tag (msg : MessageFields) : Option (List UInt8) :=
  if msg.hasAuthtype ∧ msg.authtype = .hmacAuth then
    msg.hmacauth.bind fun auth =>
      if auth.hasHmac ∧ auth.hmac.data.isSome ∧ auth.hmac.len ≠ 0 then some auth.hmac.bytes else none
  else none

/-- There are bytes behind the pointer. -/
def BinaryData.Given (array : BinaryData) : Prop := array.data.isSome ∧ array.len ≠ 0

instance instDecidableGiven (array : BinaryData) : Decidable array.Given := inferInstanceAs (Decidable (_ ∧ _))

/-- The message has a command. -/
def MessageFields.Commanded (msg : MessageFields) : Prop := msg.hasCommandbytes = true ∧ msg.commandbytes.Given

instance instDecidableCommanded (msg : MessageFields) : Decidable msg.Commanded := inferInstanceAs (Decidable (_ ∧ _))

section Tags
variable {mac : HmacSha1} {order : ByteOrder} {msg : MessageFields} {key : BinaryData}

theorem BinaryData.bytes_length (array : BinaryData) (given : array.data.isSome) : array.bytes.length = array.len.toNat := by
  obtain ⟨mem, found⟩ := Option.isSome_iff_exists.mp given
  rw [BinaryData.bytes_eq found, load_length]

theorem nboFromHostU32_mod (n : Nat) : nboFromHostU32 (n % 2 ^ 32) = nboFromHostU32 n := by
  simp only [nboFromHostU32, List.cons.injEq, and_true]
  refine ⟨uint8_ofNat_congr ?_, uint8_ofNat_congr ?_, uint8_ofNat_congr ?_, uint8_ofNat_congr ?_⟩ <;> omega

/-- The bits of the bytes that differ are collected, so none is left if and only if the bytes are the same. -/
theorem hmacDifference_eq_zero (expected actual : Nat → UInt8) (n : Nat) :
    hmacDifference expected actual n = 0 ↔ load expected 0 n = load actual 0 n := by
  induction n with
  | zero => exact ⟨fun _ => rfl, fun _ => rfl⟩
  | succ n ih =>
    have last : (expected n ^^^ actual n).toNat = 0 ↔ expected n = actual n := by
      rw [← UInt8.toNat_zero, UInt8.toNat_inj, UInt8.xor_eq_zero_iff]
    have one (m : Nat → UInt8) : load m (0 + n) 1 = [m n] := by simp [load]
    rw [hmacDifference, Nat.or_eq_zero_iff, ih, last, load_add, load_add, one, one]
    constructor
    · rintro ⟨front, end_⟩
      rw [front, end_]
    · intro same
      obtain ⟨front, end_⟩ := List.append_inj' same rfl
      exact ⟨front, List.singleton_inj.mp end_⟩

/-- `KineticHMAC_Compute` puts the tag of the command into its array. -/
theorem kineticHMACCompute_eq (mac : HmacSha1) (order : ByteOrder) (key : BinaryData) (commanded : msg.Commanded) :
    ∃ data, kineticHMACCompute mac order (kineticHMACInit .hmacSha1) msg key =
        some ⟨.hmacSha1, kineticHmacSha1Len, data⟩ ∧
      load data 0 kineticHmacSha1Len = mac.digest key.bytes (hashedCommand msg.commandbytes.bytes) := by
  obtain ⟨has, data, some⟩ := commanded
  have hashed : (HmacCtx.update (HmacCtx.update ⟨key.bytes, []⟩
      (uint32Bytes (kineticNBOFromHostU32 order (msg.commandbytes.len.toNat % 2 ^ 32)) order)) msg.commandbytes.bytes).final mac =
      mac.digest key.bytes (hashedCommand msg.commandbytes.bytes) := by
    rw [uint32Bytes_fromHost, nboFromHostU32_mod, ← BinaryData.bytes_length _ data]
    rfl
  refine ⟨write (fun _ => 0) 0 (mac.digest key.bytes (hashedCommand msg.commandbytes.bytes)), ?_, ?_⟩
  · have present : msg.commandbytes.data.isNone = false := by rw [← Option.not_isSome, data]; rfl
    unfold kineticHMACCompute
    rw [if_neg (by simp [has, present, some, kineticHMACInit, kineticHmacSha1Len])]
    dsimp only
    rw [hashed, mac.length]
    rfl
  · have written := load_write (fun _ => 0) 0 (mac.digest key.bytes (hashedCommand msg.commandbytes.bytes))
    rw [mac.length, Nat.zero_add] at written
    exact written

/-- Validation accepts the tag of the command and no other. -/
theorem kineticHMACValidate_eq (given : key.Given) (commanded : msg.Commanded) :
    kineticHMACValidate mac order msg key =
      some (decide (msg.tag = some (mac.digest key.bytes (hashedCommand msg.commandbytes.bytes)))) := by
  obtain ⟨temp, computed, tag⟩ := kineticHMACCompute_eq mac order key commanded
  have present : key.data.isNone = false := by rw [← Option.not_isSome, given.1]; rfl
  unfold kineticHMACValidate MessageFields.tag
  rw [if_neg (by simp [present, given.2]), ← tag]
  by_cases typed : msg.hasAuthtype = true ∧ msg.authtype = .hmacAuth
  · rw [if_neg (by simp [typed.1, typed.2]), if_pos typed]
    cases msg.hmacauth with
    | none => rfl
    | some auth =>
      obtain ⟨_, _, hasHmac, data, len⟩ := auth
      cases hasHmac with
      | false => rfl
      | true =>
        cases data with
        | none => rfl
        | some data =>
          by_cases empty : len = 0
          · subst empty
            simp
          · rw [computed]
            simp only [Bool.true_eq_false, if_false, empty, Option.bind_some, Option.isSome_some, true_and, ne_eq,
              not_false_eq_true, if_true, Option.some.injEq, BinaryData.bytes]
            change (if len.toNat = kineticHmacSha1Len then some (decide (hmacDifference data temp kineticHmacSha1Len = 0))
              else some false) = _
            split
            · rename_i sized
              rw [sized]
              exact congrArg some (decide_eq_decide.mpr (hmacDifference_eq_zero data temp kineticHmacSha1Len))
            · rename_i other
              refine congrArg some (decide_eq_false fun same => other ?_).symm
              have length := congrArg List.length same
              rwa [load_length, load_length] at length
  · rw [if_pos, if_neg typed]
    · rfl
    · rcases not_and_or.mp typed with untyped | other
      · exact .inl (eq_false_of_ne_true untyped)
      · exact .inr other

/-- `KineticHMAC_Populate` leaves the tag of the command in the message. -/
theorem kineticHMACPopulate_eq (mac : HmacSha1) (order : ByteOrder) {auth : HmacAuth} {data : Nat → UInt8} (attached : msg.hmacauth = some auth)
    (room : auth.hmac.data = some data) (given : key.Given) (commanded : msg.Commanded) :
    ∃ copied, kineticHMACPopulate mac order msg key =
        some { msg with
          hmacauth := some { auth with hmac := ⟨some copied, UInt64.ofNat kineticHmacSha1Len⟩, hasHmac := true } } ∧
      load copied 0 kineticHmacSha1Len = mac.digest key.bytes (hashedCommand msg.commandbytes.bytes) := by
  obtain ⟨temp, computed, tag⟩ := kineticHMACCompute_eq mac order key commanded
  have present : key.data.isNone = false := by rw [← Option.not_isSome, given.1]; rfl
  refine ⟨copy data 0 temp kineticHmacSha1Len, ?_, ?_⟩
  · unfold kineticHMACPopulate
    simp only [attached, room, Option.bind_eq_bind, Option.bind_some]
    rw [if_neg (by simp [present, given.2]), computed]
    rfl
  · have copied := load_copy_append data 0 temp kineticHmacSha1Len
    rw [Nat.zero_add] at copied
    rw [copied, tag]
    rfl

/-- Without a key or a command an assertion fails. -/
theorem kineticHMACPopulate_none {auth : HmacAuth} (attached : msg.hmacauth = some auth)
    (missing : ¬ (key.Given ∧ msg.Commanded)) : kineticHMACPopulate mac order msg key = none := by
  unfold kineticHMACPopulate
  simp only [attached, Option.bind_eq_bind, Option.bind_some]
  cases auth.hmac.data with
  | none => rfl
  | some data =>
    rw [Option.bind_some]
    split
    · rfl
    · rename_i given
      rw [not_or, Option.isNone_iff_eq_none, ← ne_eq, ← Option.isSome_iff_ne_none] at given
      have uncommanded : ¬ msg.Commanded := fun commanded => missing ⟨given, commanded⟩
      have failed : kineticHMACCompute mac order (kineticHMACInit .hmacSha1) msg key = none := by
        unfold kineticHMACCompute
        rw [if_pos]
        by_contra passes
        rw [not_or, not_or, not_or, Option.isNone_iff_eq_none, ← ne_eq (msg.commandbytes.data), ← Option.isSome_iff_ne_none]
          at passes
        exact uncommanded ⟨eq_true_of_ne_false passes.2.1, passes.2.2⟩
      rw [failed]
      rfl

end Tags

/-- The message that is sent has been authenticated, with the PIN or with the key of the session. Whoever validates it accepts
it, and one with another command in it, if and only if the digests are the same. -/
structure Authenticated (mac : HmacSha1) (order : ByteOrder) (config : AuthConfig) (pin : Option BinaryData)
    (before after : MessageFields) : Prop where
  command : after.hasCommandbytes = before.hasCommandbytes ∧ after.commandbytes = before.commandbytes
  typed : after.hasAuthtype = true
  pinned : ∀ p, pin = some p → config.useSsl = true ∧ after.authtype = .pinAuth ∧ after.pinauth = some ⟨true, p⟩ ∧
    after.hmacauth = none
  keyed : pin = none → before.Commanded ∧ after.authtype = .hmacAuth ∧ after.pinauth = none ∧
    ∃ auth, after.hmacauth = some auth ∧ auth.hasIdentity = true ∧ auth.identity = config.identity ∧
      after.tag = some (mac.digest config.hmacKey.bytes (hashedCommand before.commandbytes.bytes))
  validates : ∀ key command, key.Given → command.Given →
    kineticHMACValidate mac order { after with hasCommandbytes := true, commandbytes := command } key =
      some (decide (pin = none ∧ mac.digest config.hmacKey.bytes (hashedCommand before.commandbytes.bytes) =
        mac.digest key.bytes (hashedCommand command.bytes)))

/-- An assertion fails: on the PIN, on the key, or for want of a command. -/
def AuthFails (config : AuthConfig) (msg : MessageFields) : Option BinaryData → Prop
  | some pin => config.useSsl = true ∧ ¬ (pin.len.toNat ≤ kineticPinMaxLen ∧ (pin.len > 0 → pin.data.isSome))
  | none => config.hmacKey.data.isSome ∧
      ¬ (config.hmacKey.len.toNat ≤ kineticHmacSha1Len ∧ config.hmacKey.len ≠ 0 ∧ msg.Commanded)

section Populating
variable {mac : HmacSha1} {order : ByteOrder} {config : AuthConfig} {msg : MessageFields}

/-- A message that is not authenticated by a key is refused, whatever else is in it. -/
theorem kineticHMACValidate_other {key : BinaryData} (given : key.Given) (other : msg.authtype ≠ .hmacAuth) :
    kineticHMACValidate mac order msg key = some false := by
  have present : key.data.isNone = false := by rw [← Option.not_isSome, given.1]; rfl
  unfold kineticHMACValidate
  rw [if_neg (by simp [present, given.2]), if_pos (.inr other)]

theorem kineticAuthPopulatePin_sound (mac : HmacSha1) (order : ByteOrder) (config : AuthConfig) (msg : MessageFields)
    (pin : BinaryData) :
    AuthFails config msg (some pin) ∧ kineticAuthPopulatePin config msg pin = none ∨
      ¬ AuthFails config msg (some pin) ∧
        (config.useSsl = false ∧ kineticAuthPopulatePin config msg pin = some (.sslRequired, msg) ∨
          ∃ after, kineticAuthPopulatePin config msg pin = some (.success, after) ∧
            Authenticated mac order config (some pin) msg after) := by
  unfold kineticAuthPopulatePin AuthFails
  by_cases ssl : config.useSsl = false
  · rw [if_pos ssl]
    exact .inr ⟨by simp [ssl], .inl ⟨ssl, rfl⟩⟩
  · have secure : config.useSsl = true := eq_true_of_ne_false ssl
    rw [if_neg ssl]
    by_cases fine : pin.len.toNat ≤ kineticPinMaxLen ∧ (pin.len > 0 → pin.data.isSome)
    · rw [if_pos fine]
      refine .inr ⟨fun fails => fails.2 fine, .inr ⟨_, rfl, ⟨rfl, rfl⟩, rfl, ?_, ?_, ?_⟩⟩
      · rintro p ⟨⟩
        exact ⟨secure, rfl, rfl, rfl⟩
      · rintro ⟨⟩
      · intro key command given present
        rw [kineticHMACValidate_other given (by rintro ⟨⟩)]
        rfl
    · rw [if_neg fine]
      exact .inl ⟨⟨secure, fine⟩, rfl⟩

theorem kineticAuthPopulateHmac_some (mac : HmacSha1) (order : ByteOrder) (hmacData : Nat → UInt8) (short : config.hmacKey.len.toNat ≤ kineticHmacSha1Len)
    (given : config.hmacKey.Given) (commanded : msg.Commanded) :
    ∃ copied, kineticAuthPopulateHmac mac order config hmacData msg = some (.success, msg.withHmacAuth config copied) ∧
      load copied 0 kineticHmacSha1Len = mac.digest config.hmacKey.bytes (hashedCommand msg.commandbytes.bytes) := by
  have attached : (msg.withHmacAuth config hmacData).hmacauth =
      some ⟨true, config.identity, true, ⟨some hmacData, UInt64.ofNat kineticHmacSha1Len⟩⟩ := rfl
  obtain ⟨copied, populated, tag⟩ := kineticHMACPopulate_eq mac order attached rfl given commanded
  have present : config.hmacKey.data.isNone = false := by rw [← Option.not_isSome, given.1]; rfl
  refine ⟨copied, ?_, tag⟩
  unfold kineticAuthPopulateHmac
  rw [if_neg (by simp [present]), if_pos short, populated]
  rfl

theorem kineticAuthPopulateHmac_sound (mac : HmacSha1) (order : ByteOrder) (config : AuthConfig) (hmacData : Nat → UInt8)
    (msg : MessageFields) :
    AuthFails config msg none ∧ kineticAuthPopulateHmac mac order config hmacData msg = none ∨
      ¬ AuthFails config msg none ∧
        (config.hmacKey.data = none ∧ kineticAuthPopulateHmac mac order config hmacData msg = some (.hmacRequired, msg) ∨
          ∃ after, kineticAuthPopulateHmac mac order config hmacData msg = some (.success, after) ∧
            Authenticated mac order config none msg after) := by
  by_cases absent : config.hmacKey.data = none
  · refine .inr ⟨fun fails => ?_, .inl ⟨absent, ?_⟩⟩
    · have present := fails.1
      rw [absent] at present
      cases present
    · unfold kineticAuthPopulateHmac
      rw [if_pos (Option.isNone_iff_eq_none.mpr absent)]
  · have present := Option.isSome_iff_ne_none.mpr absent
    by_cases fine : config.hmacKey.len.toNat ≤ kineticHmacSha1Len ∧ config.hmacKey.len ≠ 0 ∧ msg.Commanded
    · obtain ⟨copied, populated, tag⟩ :=
        kineticAuthPopulateHmac_some mac order hmacData fine.1 ⟨present, fine.2.1⟩ fine.2.2
      refine .inr ⟨fun fails => fails.2 fine, .inr ⟨_, populated, ⟨rfl, rfl⟩, rfl, ?_, ?_, ?_⟩⟩
      · rintro p ⟨⟩
      · intro _
        exact ⟨fine.2.2, rfl, rfl, _, rfl, rfl, rfl, congrArg some tag⟩
      · intro key command given commanded
        rw [kineticHMACValidate_eq given ⟨rfl, commanded⟩]
        refine congrArg some (decide_eq_decide.mpr ?_)
        rw [← tag]
        change some (load copied 0 kineticHmacSha1Len) = _ ↔ _
        rw [Option.some.injEq]
        exact (and_iff_right rfl).symm
    · refine .inl ⟨⟨present, fine⟩, ?_⟩
      unfold kineticAuthPopulateHmac
      rw [if_neg (by simpa using absent)]
      by_cases short : config.hmacKey.len.toNat ≤ kineticHmacSha1Len
      · rw [if_pos short, kineticHMACPopulate_none rfl]
        · rfl
        · rintro ⟨given, commanded⟩
          exact fine ⟨short, given.2, commanded⟩
      · rw [if_neg short]

end Populating

/-- Each request is authenticated in one of two ways, or refused as it is. -/
theorem populateAuthentication_sound (mac : HmacSha1) (order : ByteOrder) (config : AuthConfig) (hmacData : Nat → UInt8)
    (msg : MessageFields) (pin : Option BinaryData) :
    AuthFails config msg pin ∧ kineticRequestPopulateAuthentication mac order config hmacData msg pin = none ∨
      ¬ AuthFails config msg pin ∧
        (pin.isSome ∧ config.useSsl = false ∧
            kineticRequestPopulateAuthentication mac order config hmacData msg pin = some (.sslRequired, msg) ∨
          pin = none ∧ config.hmacKey.data = none ∧
            kineticRequestPopulateAuthentication mac order config hmacData msg pin = some (.hmacRequired, msg) ∨
          ∃ after, kineticRequestPopulateAuthentication mac order config hmacData msg pin = some (.success, after) ∧
            Authenticated mac order config pin msg after) := by
  cases pin with
  | some pin =>
    rcases kineticAuthPopulatePin_sound mac order config msg pin with failed | ⟨fine, ⟨ssl, refused⟩ | populated⟩
    · exact .inl failed
    · exact .inr ⟨fine, .inl ⟨rfl, ssl, refused⟩⟩
    · exact .inr ⟨fine, .inr (.inr populated)⟩
  | none =>
    rcases kineticAuthPopulateHmac_sound mac order config hmacData msg with failed | ⟨fine, ⟨absent, refused⟩ | populated⟩
    · exact .inl failed
    · exact .inr ⟨fine, .inr (.inl ⟨rfl, absent, refused⟩)⟩
    · exact .inr ⟨fine, .inr (.inr populated)⟩

end Kinetic
