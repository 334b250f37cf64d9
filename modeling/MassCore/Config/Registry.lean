import Mathlib

/-!
Contract: the network registry of package `config`: the four package maps that `Register`
fills, and the lookups `IsPubKeyHashAddrID`, `IsScriptHashAddrID`,
`HDPrivateKeyToPublicKeyID` and `IsBech32SegwitPrefix` that read them.

Go maps are functions here: a set `map[K]struct{}` is `K → Bool`, a map `map[K]V` is
`K → Option V`, and an assignment is `Function.update`. The package's `init` registers
`ChainParams`, and a main package may register more networks. After any such run each lookup
is fixed by the list of networks registered: an address ID is known exactly when a
registered network has it, an extended private key ID gives the public ID of the last network
registered with it, and a segwit prefix is known exactly when its lower-case form is some
network's `Bech32HRPSegwit + "1"`. The lemmas about one `Register` call give those about a
run by induction on the list of networks.

`Register`'s documentation says it fails with `ErrDuplicateNet` on a network registered
before; the code returns nil on every call, and registering networks again changes nothing
(`registerAll_registerAll`). Prefixes are lowered on lookup only, so a network whose
`Bech32HRPSegwit` has an upper-case letter is never recognised by its prefix.

Does not own: `strings.ToLower`, a parameter; the lemmas that need it assume only that its
result has no ASCII upper-case letter, which `lowerAscii` satisfies. `UpdateGenesisBlock`, the
checkpoints and the fields of `Params` that `Register` does not read are left out. In Go the
slice `HDPublicKeyID[:]` aliases the network's array; the model copies it.
-/

namespace MassCore.Config

/-- A `[4]byte` extended key ID. -/
structure KeyID where
  bytes : List UInt8
  length_eq : bytes.length = 4
deriving DecidableEq, Repr

/-- The fields of `Params` that `Register` reads. -/
structure Params where
  bech32HRPSegwit : String
  pubKeyHashAddrID : UInt8
  scriptHashAddrID : UInt8
  hdPrivateKeyID : KeyID
  hdPublicKeyID : KeyID
deriving DecidableEq, Repr

/-- `ChainParams`, the main network, in the fields `Register` reads. -/
def chainParams : Params where
  bech32HRPSegwit := "ms"
  pubKeyHashAddrID := 0x00
  scriptHashAddrID := 0x05
  hdPrivateKeyID := ⟨[0x04, 0x88, 0xad, 0xe4], rfl⟩
  hdPublicKeyID := ⟨[0x04, 0x88, 0xb2, 0x1e], rfl⟩

/-- `ErrUnknownHDKeyID`. -/
def errUnknownHDKeyID : String := "unknown hd private extended key bytes"

/-- The package maps `pubKeyHashAddrIDs`, `scriptHashAddrIDs`, `bech32SegwitPrefixes` and
`hdPrivToPubKeyIDs`. -/
@[ext]
structure Registry where
  pubKeyHashAddrIDs : UInt8 → Bool
  scriptHashAddrIDs : UInt8 → Bool
  bech32SegwitPrefixes : String → Bool
  hdPrivToPubKeyIDs : KeyID → Option (List UInt8)

/-- The maps as `make` creates them. -/
def Registry.empty : Registry :=
  ⟨fun _ => false, fun _ => false, fun _ => false, fun _ => none⟩

/-- `Register(params)`. It returns nil on every call, so the model returns the maps only. -/
def register (params : Params) (registry : Registry) : Registry where
  pubKeyHashAddrIDs := Function.update registry.pubKeyHashAddrIDs params.pubKeyHashAddrID true
  scriptHashAddrIDs := Function.update registry.scriptHashAddrIDs params.scriptHashAddrID true
  hdPrivToPubKeyIDs :=
    Function.update registry.hdPrivToPubKeyIDs params.hdPrivateKeyID
      (some params.hdPublicKeyID.bytes)
  bech32SegwitPrefixes :=
    Function.update registry.bech32SegwitPrefixes (params.bech32HRPSegwit ++ "1") true

/-- The maps after the package's `init`, which registers `ChainParams`. -/
def initRegistry : Registry := register chainParams Registry.empty

/-- `Register` called on each network of `networks` in turn. -/
def registerAll (networks : List Params) (registry : Registry) : Registry :=
  networks.foldl (fun registry params => register params registry) registry

/-- `IsPubKeyHashAddrID(id)`. -/
def isPubKeyHashAddrID (registry : Registry) (id : UInt8) : Bool :=
  registry.pubKeyHashAddrIDs id

/-- `IsScriptHashAddrID(id)`. -/
def isScriptHashAddrID (registry : Registry) (id : UInt8) : Bool :=
  registry.scriptHashAddrIDs id

/-- `HDPrivateKeyToPublicKeyID(id)`. -/
def hdPrivateKeyToPublicKeyID (registry : Registry) (id : List UInt8) :
    Except String (List UInt8) :=
  if sized : id.length = 4 then
    match registry.hdPrivToPubKeyIDs ⟨id, sized⟩ with
    | some pubBytes => .ok pubBytes
    | none => .error errUnknownHDKeyID
  else .error errUnknownHDKeyID

/-- `IsBech32SegwitPrefix(prefix)`, with `strings.ToLower` as `toLower`. -/
def isBech32SegwitPrefix (toLower : String → String) (registry : Registry)
    (candidate : String) : Bool :=
  registry.bech32SegwitPrefixes (toLower candidate)

/-! ## One `Register` call, then a run -/

@[simp] theorem registerAll_nil (registry : Registry) : registerAll [] registry = registry := rfl

theorem registerAll_append_singleton (networks : List Params) (params : Params)
    (registry : Registry) :
    registerAll (networks ++ [params]) registry = register params (registerAll networks registry) :=
  List.foldl_append _ _ _ _

theorem update_true_eq_true {α : Type} [DecidableEq α] {set : α → Bool} {key x : α} :
    Function.update set key true x = true ↔ key = x ∨ set x = true := by
  rw [Function.update_apply]
  split_ifs with same
  · simp [same]
  · simp [Ne.symm same]

section Sets

variable {α : Type} (field : Registry → α → Bool) (key : Params → α)

/-- A set that `Register` only adds `key params` to knows, after a run, the keys of the
networks registered and those it knew before. -/
theorem registerAll_set_eq_true
    (adds : ∀ params registry x,
      field (register params registry) x = true ↔ key params = x ∨ field registry x = true)
    (networks : List Params) (registry : Registry) (x : α) :
    field (registerAll networks registry) x = true ↔
      (∃ params ∈ networks, key params = x) ∨ field registry x = true := by
  induction networks using List.reverseRecOn with
  | nil => simp
  | append_singleton networks params inductionHypothesis =>
      rw [registerAll_append_singleton, adds, inductionHypothesis]
      simp only [List.mem_append, List.mem_singleton, or_and_right, exists_or, exists_eq_left]
      exact or_left_comm.trans or_assoc.symm

theorem registerAll_set_registerAll
    (adds : ∀ params registry x,
      field (register params registry) x = true ↔ key params = x ∨ field registry x = true)
    (networks : List Params) (registry : Registry) (x : α) :
    field (registerAll networks (registerAll networks registry)) x =
      field (registerAll networks registry) x := by
  rw [Bool.eq_iff_iff, registerAll_set_eq_true field key adds,
    registerAll_set_eq_true field key adds, or_self_left]

end Sets

/-- The extended key map gives the public ID of the last network registered with the
private ID, or what it held before the run. -/
theorem hdPrivToPubKeyIDs_registerAll (networks : List Params) (registry : Registry)
    (key : KeyID) :
    (registerAll networks registry).hdPrivToPubKeyIDs key =
      ((networks.reverse.find? (·.hdPrivateKeyID = key)).map (·.hdPublicKeyID.bytes)).or
        (registry.hdPrivToPubKeyIDs key) := by
  induction networks using List.reverseRecOn with
  | nil => simp
  | append_singleton networks params inductionHypothesis =>
      rw [registerAll_append_singleton]
      by_cases same : params.hdPrivateKeyID = key
      · simp [register, same]
      · simp [register, Function.update_apply, Ne.symm same, same, inductionHypothesis]

/-- After `init` and `Register` on `networks`, a segwit prefix is recognised through the
networks registered, `ChainParams` first. -/
theorem isBech32SegwitPrefix_registerAll (toLower : String → String) (networks : List Params)
    (candidate : String) :
    isBech32SegwitPrefix toLower (registerAll networks initRegistry) candidate = true ↔
      ∃ params ∈ chainParams :: networks, params.bech32HRPSegwit ++ "1" = toLower candidate :=
  (registerAll_set_eq_true (·.bech32SegwitPrefixes) (·.bech32HRPSegwit ++ "1")
    (fun _ _ _ => update_true_eq_true) (chainParams :: networks) Registry.empty
    (toLower candidate)).trans (or_iff_left Bool.false_ne_true)

/-- After `init` and `Register` on `networks`, each lookup is fixed by the networks
registered, `ChainParams` first. -/
theorem lookups_after_registration (toLower : String → String) (networks : List Params) :
    (∀ id, isPubKeyHashAddrID (registerAll networks initRegistry) id = true ↔
      ∃ params ∈ chainParams :: networks, params.pubKeyHashAddrID = id) ∧
    (∀ id, isScriptHashAddrID (registerAll networks initRegistry) id = true ↔
      ∃ params ∈ chainParams :: networks, params.scriptHashAddrID = id) ∧
    (∀ id, hdPrivateKeyToPublicKeyID (registerAll networks initRegistry) id =
      match ((chainParams :: networks).reverse.find? (·.hdPrivateKeyID.bytes = id)) with
      | some params => .ok params.hdPublicKeyID.bytes
      | none => .error errUnknownHDKeyID) ∧
    (∀ candidate, isBech32SegwitPrefix toLower (registerAll networks initRegistry) candidate =
        true ↔
      ∃ params ∈ chainParams :: networks, params.bech32HRPSegwit ++ "1" = toLower candidate) := by
  rw [show registerAll networks initRegistry =
    registerAll (chainParams :: networks) Registry.empty from rfl]
  refine ⟨fun id => ?_, fun id => ?_, fun id => ?_, fun candidate => ?_⟩
  · exact (registerAll_set_eq_true (·.pubKeyHashAddrIDs) (·.pubKeyHashAddrID)
      (fun _ _ _ => update_true_eq_true) _ _ id).trans (or_iff_left Bool.false_ne_true)
  · exact (registerAll_set_eq_true (·.scriptHashAddrIDs) (·.scriptHashAddrID)
      (fun _ _ _ => update_true_eq_true) _ _ id).trans (or_iff_left Bool.false_ne_true)
  · rw [hdPrivateKeyToPublicKeyID]
    split_ifs with sized
    · rw [hdPrivToPubKeyIDs_registerAll]
      have sameKey : ∀ params : Params,
          (params.hdPrivateKeyID = ⟨id, sized⟩) ↔ params.hdPrivateKeyID.bytes = id :=
        fun params => by cases params.hdPrivateKeyID; simp
      simp only [sameKey]
      cases (chainParams :: networks).reverse.find? (·.hdPrivateKeyID.bytes = id) <;> rfl
    · -- every registered private ID has four bytes, so none matches
      have noMatch : (chainParams :: networks).reverse.find? (·.hdPrivateKeyID.bytes = id) =
          none := by
        rw [List.find?_eq_none]
        intro params _ matched
        exact sized (of_decide_eq_true matched ▸ params.hdPrivateKeyID.length_eq)
      rw [noMatch]
  · exact isBech32SegwitPrefix_registerAll toLower networks candidate

example : isPubKeyHashAddrID initRegistry 0x00 = true := rfl

example : hdPrivateKeyToPublicKeyID initRegistry [0x04, 0x88, 0xad, 0xe4] =
    .ok [0x04, 0x88, 0xb2, 0x1e] := rfl

/-- Registering networks again changes none of the maps: each call that the documentation
says fails with `ErrDuplicateNet` returns nil and leaves the registry as it was. -/
theorem registerAll_registerAll (networks : List Params) (registry : Registry) :
    registerAll networks (registerAll networks registry) = registerAll networks registry := by
  ext x : 2
  · exact registerAll_set_registerAll (·.pubKeyHashAddrIDs) (·.pubKeyHashAddrID)
      (fun _ _ _ => update_true_eq_true) networks registry x
  · exact registerAll_set_registerAll (·.scriptHashAddrIDs) (·.scriptHashAddrID)
      (fun _ _ _ => update_true_eq_true) networks registry x
  · exact registerAll_set_registerAll (·.bech32SegwitPrefixes) (·.bech32HRPSegwit ++ "1")
      (fun _ _ _ => update_true_eq_true) networks registry x
  · -- the last network registered with the key answers, or the registry before: the same twice
    rw [hdPrivToPubKeyIDs_registerAll, hdPrivToPubKeyIDs_registerAll]
    cases (networks.reverse.find? (·.hdPrivateKeyID = x)).map (·.hdPublicKeyID.bytes) <;> rfl

/-! ## Lower-case lookup of segwit prefixes -/

/-- The one property of `strings.ToLower` the lookup relies on: its result has no ASCII
upper-case letter. -/
def LowersAscii (toLower : String → String) : Prop :=
  ∀ text, ∀ c ∈ (toLower text).data, c.isUpper = false

/-- ASCII lower-casing, which `strings.ToLower` agrees with on ASCII text. -/
def lowerAscii (text : String) : String := ⟨text.data.map Char.toLower⟩

example : isBech32SegwitPrefix lowerAscii initRegistry "MS1" = true := by decide

theorem isUpper_iff (c : Char) : c.isUpper = true ↔ 65 ≤ c.toNat ∧ c.toNat ≤ 90 := by
  simp [Char.isUpper, UInt32.le_def, BitVec.le_def, Char.toNat]
  rfl

theorem toLower_isUpper (c : Char) : c.toLower.isUpper = false := by
  unfold Char.toLower
  dsimp only
  split_ifs with upper
  · have lowered : ∀ k < 26, (Char.ofNat (k + 65 + 32)).isUpper = false := by decide
    obtain ⟨k, inRange, shifted⟩ : ∃ k < 26, c.toNat = k + 65 :=
      ⟨c.toNat - 65, by omega, by omega⟩
    rw [shifted]
    exact lowered k inRange
  · rw [← Bool.not_eq_true, isUpper_iff]
    exact upper

theorem lowersAscii_lowerAscii : LowersAscii lowerAscii := by
  intro text c lowered
  obtain ⟨original, -, rfl⟩ := List.mem_map.mp lowered
  exact toLower_isUpper original

/-- A network whose `Bech32HRPSegwit` has an upper-case letter is recognised by no prefix:
its own prefix is never what a lookup compares. -/
theorem segwitPrefix_ne_of_upper {toLower : String → String} (lowers : LowersAscii toLower)
    {params : Params} (upper : ∃ c ∈ params.bech32HRPSegwit.data, c.isUpper = true)
    (candidate : String) :
    params.bech32HRPSegwit ++ "1" ≠ toLower candidate := by
  intro same
  obtain ⟨c, inHrp, isUpper⟩ := upper
  have inLowered : c ∈ (toLower candidate).data := by
    rw [← same, String.data_append]
    exact List.mem_append_left _ inHrp
  rw [lowers candidate c inLowered] at isUpper
  exact Bool.false_ne_true isUpper

/-- After any run, a segwit prefix is recognised exactly through the networks whose
`Bech32HRPSegwit` has no upper-case letter. -/
theorem isBech32SegwitPrefix_after_registration {toLower : String → String}
    (lowers : LowersAscii toLower) (networks : List Params) (candidate : String) :
    isBech32SegwitPrefix toLower (registerAll networks initRegistry) candidate = true ↔
      ∃ params ∈ chainParams :: networks,
        (∀ c ∈ params.bech32HRPSegwit.data, c.isUpper = false) ∧
          params.bech32HRPSegwit ++ "1" = toLower candidate := by
  rw [isBech32SegwitPrefix_registerAll]
  constructor
  · rintro ⟨params, registered, same⟩
    refine ⟨params, registered, fun c inHrp => ?_, same⟩
    by_contra upper
    exact segwitPrefix_ne_of_upper lowers ⟨c, inHrp, Bool.not_eq_false _ ▸ upper⟩ candidate same
  · rintro ⟨params, registered, -, same⟩
    exact ⟨params, registered, same⟩

theorem isBech32SegwitPrefix_after_registration_lowerAscii :
    LowersAscii lowerAscii ∧
      (isBech32SegwitPrefix lowerAscii (registerAll [] initRegistry) "MS1" = true ↔
        ∃ params ∈ [chainParams], (∀ c ∈ params.bech32HRPSegwit.data, c.isUpper = false) ∧
          params.bech32HRPSegwit ++ "1" = lowerAscii "MS1") :=
  ⟨lowersAscii_lowerAscii,
    isBech32SegwitPrefix_after_registration lowersAscii_lowerAscii [] "MS1"⟩

end MassCore.Config
