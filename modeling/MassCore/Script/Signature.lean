import MassCore.Script.Basic

/-!
Contract: `checkSignatureEncoding` of `txscript/engine.go`, the strict-DER and low-S check
of an ECDSA signature, with Go's index reads made explicit.

A read `sig[i]` past the end of the slice is a runtime panic, which the model returns as
`Failure.panic`. Every read but one is guarded by an earlier check: `sig[rLen+5]` is read
after `rLen+5 > len(sig)` has been ruled out, which still admits `rLen+5 = len(sig)`.

Owns: the exact inputs on which the check panics, and the grammar it accepts: a DER
sequence of two canonical integers R and S with S at most `halfOrder`.

Does not own: the group order, which comes from `btcec`, not part of these sources.
-/

namespace MassCore.Script

/-! ## Go values -/

/-- `btcec.S256().N`, the order of the secp256k1 group. -/
def secp256k1Order : Nat :=
  0xFFFFFFFFFFFFFFFFFFFFFFFFFFFFFFFEBAAEDCE6AF48A03BBFD25E8CD0364141

/-- `halfOrder`: `new(big.Int).Rsh(btcec.S256().N, 1)`. -/
def halfOrder : Nat := secp256k1Order >>> 1

/-- `new(big.Int).SetBytes(buf)`: `buf` read as an unsigned big-endian number. -/
def bigEndian (buf : Bytes) : Nat := buf.foldl (fun value byte => value * 256 + byte.toNat) 0

/-- Go's `sig[i]`: the byte, or a runtime panic past the end of the slice. -/
def byteAt (sig : Bytes) (i : Nat) : Except Failure UInt8 :=
  match sig[i]? with
  | some byte => .ok byte
  | none => .error .panic

/-- Go's `sig[low:high]`. A `Bytes` value carries no capacity beyond its length, so the
slice panics when `high` passes the length; the engine slices only up to `len(sig)`. -/
def sliceBytes (sig : Bytes) (low high : Nat) : Except Failure Bytes :=
  if low ≤ high ∧ high ≤ sig.length then .ok ((sig.drop low).take (high - low))
  else .error .panic

/-- Go's `%x` of a byte: lower-case hexadecimal digits without leading zeros. -/
def hexByte (byte : UInt8) : String := String.mk (Nat.toDigits 16 byte.toNat)

/-- `fmt.Errorf("malformed signature: ...")`. -/
def malformedSignature (text : String) : Failure :=
  .error (.message ("malformed signature: " ++ text))

/-! ## `checkSignatureEncoding` -/

/-- Lines 381-414 of `checkSignatureEncoding`: the overall length, the sequence type, the
length byte, and the lengths `rLen` and `sLen` of the two integers. -/
def checkSignatureLengths (sig : Bytes) : Except Failure (Nat × Nat) :=
  if sig.length < 8 then
    .error (malformedSignature ("too short: " ++ toString sig.length ++ " < 8"))
  else if sig.length > 72 then
    .error (malformedSignature ("too long: " ++ toString sig.length ++ " > 72"))
  else byteAt sig 0 >>= fun kind =>
    if kind ≠ 0x30 then
      .error (malformedSignature ("format has wrong type: 0x" ++ hexByte kind))
    else byteAt sig 1 >>= fun total =>
      if total.toNat ≠ sig.length - 2 then
        .error (malformedSignature ("bad length: " ++ toString total.toNat ++ " != " ++
          toString (sig.length - 2)))
      else byteAt sig 3 >>= fun rLen =>
        if rLen.toNat + 5 > sig.length then .error (malformedSignature "S out of bounds")
        else byteAt sig (rLen.toNat + 5) >>= fun sLen =>
          if rLen.toNat + sLen.toNat + 6 ≠ sig.length then
            .error (malformedSignature "invalid R length")
          else .ok (rLen.toNat, sLen.toNat)

/-- Lines 417-456, run for R and then for S: the integer marker at `markerAt`, a non-zero
length `len`, a first byte without the sign bit, and no null first byte unless the second
has the sign bit. `ordinal` and `name` name the integer in the errors. -/
def checkSignatureInteger (sig : Bytes) (markerAt len : Nat) (ordinal name : String) :
    Except Failure Unit :=
  byteAt sig markerAt >>= fun marker =>
  if marker ≠ 0x02 then
    .error (malformedSignature ("missing " ++ ordinal ++ " integer marker"))
  else if len = 0 then .error (malformedSignature (name ++ " length is zero"))
  else byteAt sig (markerAt + 2) >>= fun first =>
    if first &&& 0x80 ≠ 0 then .error (malformedSignature (name ++ " value is negative"))
    else if len > 1 ∧ first = 0x00 then
      byteAt sig (markerAt + 3) >>= fun second =>
        if second &&& 0x80 = 0 then
          .error (malformedSignature ("invalid " ++ name ++ " value"))
        else .ok ()
    else .ok ()

/-- `checkSignatureEncoding(sig)`. It reads nothing of the engine. -/
def checkSignatureEncoding (sig : Bytes) : Except Failure Unit :=
  checkSignatureLengths sig >>= fun lengths =>
  checkSignatureInteger sig 2 lengths.1 "first" "R" >>= fun _ =>
  checkSignatureInteger sig (lengths.1 + 4) lengths.2 "second" "S" >>= fun _ =>
  sliceBytes sig (lengths.1 + 6) (lengths.1 + 6 + lengths.2) >>= fun sValue =>
  if bigEndian sValue > halfOrder then .error (.error .errStackInvalidLowSSignature)
  else .ok ()

example : checkSignatureEncoding [0x30, 0x06, 0x02, 0x01, 0x01, 0x02, 0x01, 0x01] = .ok () :=
  rfl

example : checkSignatureEncoding [0x31, 0x06, 0x02, 0x01, 0x01, 0x02, 0x01, 0x01] =
    .error (malformedSignature "format has wrong type: 0x31") :=
  rfl

/-! ## The strict-DER, low-S grammar -/

/-- A canonical DER integer: at least one byte, the first below
`0x80`, and no `0x00` first byte followed by a byte below `0x80`. -/
def CanonicalInteger : Bytes → Prop
  | [] => False
  | [first] => first < 0x80
  | first :: second :: _ => first < 0x80 ∧ ¬(first = 0x00 ∧ second < 0x80)

instance : DecidablePred CanonicalInteger := fun value =>
  match value with
  | [] => isFalse id
  | [first] => inferInstanceAs (Decidable (first < 0x80))
  | first :: second :: _ =>
      inferInstanceAs (Decidable (first < 0x80 ∧ ¬(first = 0x00 ∧ second < 0x80)))

example : CanonicalInteger [0x00, 0x80] ∧ ¬CanonicalInteger [0x00, 0x7f] := by decide

/-- A strict-DER, low-S ECDSA signature: `0x30 <4+|R|+|S|> 0x02 <|R|> R 0x02 <|S|> S`
of 8 to 72 bytes with R and S canonical integers and S at most `halfOrder`. -/
def StrictDERLowS (sig : Bytes) : Prop :=
  ∃ r s : Bytes,
    sig = [0x30, UInt8.ofNat (4 + r.length + s.length), 0x02, UInt8.ofNat r.length] ++ r ++
      [0x02, UInt8.ofNat s.length] ++ s ∧
    8 ≤ sig.length ∧ sig.length ≤ 72 ∧ CanonicalInteger r ∧ CanonicalInteger s ∧
    bigEndian s ≤ halfOrder

/-! ## Reading the signature -/

variable {sig : Bytes} {rLen sLen : Nat}

theorem byteAt_eq_ok {i : Nat} {byte : UInt8} :
    byteAt sig i = .ok byte ↔ sig[i]? = some byte := by
  unfold byteAt
  cases sig[i]? <;> simp

theorem byteAt_eq_panic {i : Nat} : byteAt sig i = .error .panic ↔ sig.length ≤ i := by
  unfold byteAt
  rw [← List.getElem?_eq_none_iff]
  cases sig[i]? <;> simp

theorem byteAt_of_lt {i : Nat} (inside : i < sig.length) : byteAt sig i = .ok sig[i] :=
  byteAt_eq_ok.mpr (List.getElem?_eq_getElem inside)

theorem byteAt_of_le {i : Nat} (past : sig.length ≤ i) : byteAt sig i = .error .panic := by
  simp [byteAt, List.getElem?_eq_none past]

theorem toNat_ofNat_of_lt {n : Nat} (small : n < 256) : (UInt8.ofNat n).toNat = n :=
  Nat.mod_eq_of_lt small

theorem ofNat_toNat (byte : UInt8) : UInt8.ofNat byte.toNat = byte :=
  UInt8.toNat.inj (toNat_ofNat_of_lt byte.toNat_lt)

theorem sliceBytes_of_le {low high : Nat} (ordered : low ≤ high) (inside : high ≤ sig.length) :
    sliceBytes sig low high = .ok ((sig.drop low).take (high - low)) := by
  simp [sliceBytes, ordered, inside]

theorem malformedSignature_ne_panic (text : String) : malformedSignature text ≠ .panic := by
  simp [malformedSignature]

/-- A guard whose other branch accepts passes exactly when its body does, if it runs. -/
theorem ite_ok_eq_ok {c : Prop} [Decidable c] {x : Except Failure Unit} :
    (if c then x else .ok ()) = .ok () ↔ (c → x = .ok ()) := by
  split_ifs <;> simp [*]

theorem lt_iff_toNat_lt (a b : UInt8) : a < b ↔ a.toNat < b.toNat :=
  UInt8.lt_def.trans BitVec.lt_def

/-- The sign-bit test `byte & 0x80 == 0` of the code is the comparison `byte < 0x80` of the
grammar. -/
theorem and_signBit_eq_zero (byte : UInt8) : byte &&& 0x80 = 0 ↔ byte < 0x80 := by
  rw [UInt8.ext_iff, UInt8.and_toNat, lt_iff_toNat_lt]
  have small := byte.toNat_lt
  show byte.toNat &&& 2 ^ 7 = 0 ↔ byte.toNat < 2 ^ 7
  rw [Nat.and_two_pow, Nat.testBit_to_div_mod]
  by_cases signed : 2 ^ 7 ≤ byte.toNat
  · have bit : byte.toNat / 2 ^ 7 % 2 = 1 := by omega
    simp [bit]
    omega
  · have bit : byte.toNat / 2 ^ 7 % 2 = 0 := by omega
    simp [bit]
    omega

theorem take_drop_succ {i : Nat} (n : Nat) (inside : i < sig.length) :
    (sig.drop i).take (n + 1) = sig[i] :: (sig.drop (i + 1)).take n := by
  rw [List.drop_eq_getElem_cons inside, List.take_succ_cons]

/-! ## The length checks -/

/-- The length checks pass exactly on a header `0x30 <len-2> _ <rLen>` whose S length byte
`sLen` lies inside the signature and makes the lengths add up. -/
theorem checkSignatureLengths_eq_ok :
    checkSignatureLengths sig = .ok (rLen, sLen) ↔
      8 ≤ sig.length ∧ sig.length ≤ 72 ∧ sig[0]? = some 0x30 ∧
        sig[1]? = some (UInt8.ofNat (sig.length - 2)) ∧ sig[3]? = some (UInt8.ofNat rLen) ∧
        sig[rLen + 5]? = some (UInt8.ofNat sLen) ∧ rLen + sLen + 6 = sig.length := by
  constructor
  · intro checked
    simp only [checkSignatureLengths, ite_error_eq_ok, bind_eq_ok, byteAt_eq_ok, ne_eq, not_not,
      Except.ok.injEq, Prod.mk.injEq] at checked
    obtain ⟨short, long, kind, kindAt, rfl, total, totalAt, wrongTotal, rByte, rAt, -, sByte, sAt,
      sum, rfl, rfl⟩ := checked
    refine ⟨by omega, by omega, kindAt, ?_, ?_, ?_, sum⟩
    · rw [totalAt, ← wrongTotal, ofNat_toNat]
    · rw [rAt, ofNat_toNat]
    · rw [sAt, ofNat_toNat]
  · rintro ⟨long, short, kindAt, totalAt, rAt, sAt, sum⟩
    have rSmall : rLen < 256 := by omega
    have sSmall : sLen < 256 := by omega
    have totalSmall : sig.length - 2 < 256 := by omega
    simp only [checkSignatureLengths, bind, Except.bind, byteAt_eq_ok.mpr kindAt,
      byteAt_eq_ok.mpr totalAt, byteAt_eq_ok.mpr rAt, toNat_ofNat_of_lt rSmall,
      byteAt_eq_ok.mpr sAt, toNat_ofNat_of_lt sSmall, toNat_ofNat_of_lt totalSmall,
      ite_error_eq_ok, ne_eq, not_not, and_true, true_and]
    omega

theorem checkSignatureLengths_eq_panic :
    checkSignatureLengths sig = .error .panic ↔
      8 ≤ sig.length ∧ sig.length ≤ 72 ∧ sig[0]? = some 0x30 ∧
        sig[1]?.map UInt8.toNat = some (sig.length - 2) ∧
        sig[3]?.map UInt8.toNat = some (sig.length - 5) := by
  by_cases inside : 8 ≤ sig.length ∧ sig.length ≤ 72
  · rw [List.getElem?_eq_getElem (show 0 < sig.length by omega),
      List.getElem?_eq_getElem (show 1 < sig.length by omega),
      List.getElem?_eq_getElem (show 3 < sig.length by omega)]
    simp [checkSignatureLengths, byteAt_of_lt (show 0 < sig.length by omega),
      byteAt_of_lt (show 1 < sig.length by omega), byteAt_of_lt (show 3 < sig.length by omega),
      ite_eq_iff, malformedSignature_ne_panic, inside, bind_eq_error, byteAt_eq_panic]
    intro _ _
    omega
  · have outside : sig.length < 8 ∨ 72 < sig.length := by omega
    rcases outside with short | long
    · simp [checkSignatureLengths, short, malformedSignature_ne_panic]
    · simp [checkSignatureLengths, long, ite_eq_iff, malformedSignature_ne_panic]

/-! ## The checks of one integer -/

/-- Inside the signature, the checks of one integer pass exactly when its marker is there
and its bytes are a canonical integer. -/
theorem checkSignatureInteger_eq_ok {markerAt len : Nat} {ordinal name : String}
    (inBounds : markerAt + 2 + len ≤ sig.length) :
    checkSignatureInteger sig markerAt len ordinal name = .ok () ↔
      sig[markerAt]? = some 0x02 ∧ CanonicalInteger ((sig.drop (markerAt + 2)).take len) := by
  rw [List.getElem?_eq_getElem (show markerAt < sig.length by omega), Option.some.injEq]
  simp only [checkSignatureInteger, bind_eq_ok, byteAt_of_lt (show markerAt < sig.length by omega),
    Except.ok.injEq, exists_eq_left', byteAt_eq_ok, ite_error_eq_ok, ite_ok_eq_ok, ne_eq,
    not_not, and_signBit_eq_zero, and_true]
  rcases len with _ | _ | len
  · simp [CanonicalInteger]
  · rw [take_drop_succ 0 (by omega),
      List.getElem?_eq_getElem (show markerAt + 2 < sig.length by omega)]
    simp [CanonicalInteger]
  · rw [take_drop_succ _ (by omega), take_drop_succ _ (by omega),
      List.getElem?_eq_getElem (show markerAt + 2 < sig.length by omega),
      List.getElem?_eq_getElem (show markerAt + 3 < sig.length by omega)]
    simp [CanonicalInteger]

/-- Inside the signature, the checks of one integer never panic. -/
theorem checkSignatureInteger_ne_panic {markerAt len : Nat} {ordinal name : String}
    (inBounds : markerAt + 2 + len ≤ sig.length) :
    checkSignatureInteger sig markerAt len ordinal name ≠ .error .panic := by
  have markerRead := byteAt_of_lt (show markerAt < sig.length by omega)
  rcases len with _ | _ | len
  · simp [checkSignatureInteger, markerRead, bind, Except.bind, ite_eq_iff,
      malformedSignature_ne_panic]
  · simp [checkSignatureInteger, markerRead, byteAt_of_lt (show markerAt + 2 < sig.length by omega),
      bind, Except.bind, ite_eq_iff, malformedSignature_ne_panic]
  · simp [checkSignatureInteger, markerRead, byteAt_of_lt (show markerAt + 2 < sig.length by omega),
      byteAt_of_lt (show markerAt + 3 < sig.length by omega), bind, Except.bind, ite_eq_iff,
      malformedSignature_ne_panic]

/-! ## The layout of a signature -/

/-- A byte string of length `rLen + sLen + 6` is four bytes, `rLen` bytes, two bytes and
`sLen` bytes. -/
theorem exists_eq_append_of_length (lengths : rLen + sLen + 6 = sig.length) :
    ∃ a b c d r e f s, sig = [a, b, c, d] ++ r ++ [e, f] ++ s ∧ r.length = rLen ∧
      s.length = sLen := by
  rcases sig with _ | ⟨a, _ | ⟨b, _ | ⟨c, _ | ⟨d, rest⟩⟩⟩⟩ <;>
    simp only [List.length_cons, List.length_nil] at lengths <;> try omega
  obtain ⟨e, f, s, tail⟩ : ∃ e f s, rest.drop rLen = e :: f :: s := by
    rcases dropped : rest.drop rLen with _ | ⟨e, _ | ⟨f, s⟩⟩ <;>
      have droppedLength := congrArg List.length dropped <;>
      simp only [List.length_drop, List.length_cons, List.length_nil] at droppedLength
    · omega
    · omega
    · exact ⟨e, f, s, rfl⟩
  have tailLength := congrArg List.length tail
  simp only [List.length_drop, List.length_cons] at tailLength
  refine ⟨a, b, c, d, rest.take rLen, e, f, s, ?_, by simp; omega, by omega⟩
  conv_lhs => rw [← List.take_append_drop rLen rest, tail]
  simp

section Layout

variable {a b c d e f : UInt8} {r s : Bytes}

theorem layout_length : ([a, b, c, d] ++ r ++ [e, f] ++ s).length = r.length + s.length + 6 := by
  simp only [List.length_append, List.length_cons, List.length_nil]
  omega

theorem layout_getElem?_rLength_add_four :
    ([a, b, c, d] ++ r ++ [e, f] ++ s)[r.length + 4]? = some e := by
  simp [List.getElem?_append_right, List.getElem_append_right]

theorem layout_getElem?_rLength_add_five :
    ([a, b, c, d] ++ r ++ [e, f] ++ s)[r.length + 5]? = some f := by
  simp [List.getElem?_append_right, List.getElem_append_right]

theorem layout_take_drop_four :
    (([a, b, c, d] ++ r ++ [e, f] ++ s).drop 4).take r.length = r := by
  simp

theorem layout_take_drop_rLength_add_six :
    (([a, b, c, d] ++ r ++ [e, f] ++ s).drop (r.length + 6)).take s.length = s := by
  simp

end Layout

/-! ## What the check accepts, and where it panics -/

/-- `checkSignatureEncoding` accepts exactly the strict-DER, low-S signatures. -/
theorem checkSignatureEncoding_eq_ok_iff :
    checkSignatureEncoding sig = .ok () ↔ StrictDERLowS sig := by
  constructor
  · intro accepted
    obtain ⟨⟨rLen, sLen⟩, lengthsOk, accepted⟩ := bind_eq_ok.mp accepted
    obtain ⟨long, short, kindAt, totalAt, rAt, sAt, sum⟩ := checkSignatureLengths_eq_ok.mp lengthsOk
    obtain ⟨_, rOk, accepted⟩ := bind_eq_ok.mp accepted
    obtain ⟨_, sOk, accepted⟩ := bind_eq_ok.mp accepted
    obtain ⟨sValue, sliced, low⟩ := bind_eq_ok.mp accepted
    obtain ⟨rMarker, rCanonical⟩ :=
      (checkSignatureInteger_eq_ok (show 2 + 2 + rLen ≤ sig.length by omega)).mp rOk
    obtain ⟨sMarker, sCanonical⟩ :=
      (checkSignatureInteger_eq_ok (show rLen + 4 + 2 + sLen ≤ sig.length by omega)).mp sOk
    rw [sliceBytes_of_le (by omega) (by omega)] at sliced
    split_ifs at low with high
    obtain ⟨a, b, c, d, r, e, f, s, rfl, rfl, rfl⟩ := exists_eq_append_of_length sum
    rw [show 2 + 2 = 4 from rfl, layout_take_drop_four] at rCanonical
    rw [show r.length + 4 + 2 = r.length + 6 by omega, layout_take_drop_rLength_add_six]
      at sCanonical
    simp only [Nat.add_sub_cancel_left, layout_take_drop_rLength_add_six, Except.ok.injEq] at sliced
    subst sliced
    simp only [layout_getElem?_rLength_add_four, layout_getElem?_rLength_add_five,
      Option.some.injEq] at sMarker sAt
    simp only [layout_length] at totalAt
    have bytesEq : [a, b, c, d] = [0x30, UInt8.ofNat (4 + r.length + s.length), 0x02,
        UInt8.ofNat r.length] := by
      simp only [List.getElem?_cons_zero, List.getElem?_cons_succ, List.cons_append,
        Option.some.injEq] at kindAt totalAt rAt rMarker
      rw [kindAt, totalAt, rAt, rMarker,
        show r.length + s.length + 6 - 2 = 4 + r.length + s.length by omega]
    refine ⟨r, s, by rw [← bytesEq, sMarker, sAt], long, short, rCanonical, sCanonical,
      not_lt.mp high⟩
  · rintro ⟨r, s, sigEq, long, short, rCanonical, sCanonical, low⟩
    have total : sig.length = r.length + s.length + 6 := by rw [sigEq, layout_length]
    have lengthsOk : checkSignatureLengths sig = .ok (r.length, s.length) :=
      checkSignatureLengths_eq_ok.mpr ⟨long, short, by rw [sigEq]; rfl,
        by rw [sigEq, layout_length, show r.length + s.length + 6 - 2 = 4 + r.length + s.length
          by omega]; rfl,
        by simp [sigEq], by rw [sigEq, layout_getElem?_rLength_add_five], total.symm⟩
    have rOk : checkSignatureInteger sig 2 r.length "first" "R" = .ok () :=
      (checkSignatureInteger_eq_ok (by omega)).mpr ⟨by rw [sigEq]; rfl,
        by rwa [sigEq, show 2 + 2 = 4 from rfl, layout_take_drop_four]⟩
    have sOk : checkSignatureInteger sig (r.length + 4) s.length "second" "S" = .ok () :=
      (checkSignatureInteger_eq_ok (by omega)).mpr ⟨by rw [sigEq, layout_getElem?_rLength_add_four],
        by rwa [sigEq, show r.length + 4 + 2 = r.length + 6 by omega,
          layout_take_drop_rLength_add_six]⟩
    rw [checkSignatureEncoding, lengthsOk]
    simp only [bind, Except.bind, rOk, sOk]
    rw [sliceBytes_of_le (by omega) (by omega), Nat.add_sub_cancel_left, sigEq,
      layout_take_drop_rLength_add_six]
    simp [not_lt.mpr low]

/-- `checkSignatureEncoding` panics exactly when the header passes and `sig[3] + 5` is the
length of the signature: `sig[rLen+5]` is then read one past the end. -/
theorem checkSignatureEncoding_eq_panic :
    checkSignatureEncoding sig = .error .panic ↔
      8 ≤ sig.length ∧ sig.length ≤ 72 ∧ sig[0]? = some 0x30 ∧
        sig[1]?.map UInt8.toNat = some (sig.length - 2) ∧
        sig[3]?.map UInt8.toNat = some (sig.length - 5) := by
  rw [← checkSignatureLengths_eq_panic]
  unfold checkSignatureEncoding
  cases lengthsOk : checkSignatureLengths sig with
  | error failure => simp only [bind, Except.bind, Except.error.injEq]
  | ok lengths =>
      obtain ⟨rLen, sLen⟩ := lengths
      obtain ⟨-, -, -, -, -, -, total⟩ := checkSignatureLengths_eq_ok.mp lengthsOk
      have rSafe : checkSignatureInteger sig 2 rLen "first" "R" ≠ .error .panic :=
        checkSignatureInteger_ne_panic (by omega)
      have sSafe : checkSignatureInteger sig (rLen + 4) sLen "second" "S" ≠ .error .panic :=
        checkSignatureInteger_ne_panic (by omega)
      simp only [bind, Except.bind, reduceCtorEq, iff_false]
      cases rOk : checkSignatureInteger sig 2 rLen "first" "R" with
      | error failure => simpa [rOk] using rSafe
      | ok _ =>
          cases sOk : checkSignatureInteger sig (rLen + 4) sLen "second" "S" with
          | error failure => simpa [sOk] using sSafe
          | ok _ =>
              rw [sliceBytes_of_le (by omega) (by omega)]
              dsimp only
              split_ifs <;> simp

theorem checkSignatureEncoding_panics_on_short_S :
    checkSignatureEncoding [0x30, 0x06, 0x02, 0x03, 0x01, 0x01, 0x01, 0x01] = .error .panic :=
  rfl

end MassCore.Script
