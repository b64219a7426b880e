import Brookesia.Usb.HostProtocol

/-! # Host encoder and device decoder

`encode_frame` of the host against `FrameParser` of the device: what the one writes the other gives back,
however it is cut, and what the parser takes from its buffer is what the encoder would have written. -/

namespace Brookesia.Usb.Codec

open Filesystem.Path (Bytes)
open Protocol List
open HostProtocol (HostFrame encodeFrame u32Le packU8 packU32 packFields frameTypeNumber)

/-! ### Numbers -/

theorem readU32Le_toNat (a b c d : UInt8) (rest : Bytes) : (readU32Le (a :: b :: c :: d :: rest)).toNat =
      a.toNat + 2 ^ 8 * b.toNat + 2 ^ 16 * c.toNat + 2 ^ 24 * d.toNat := by
  have ha := a.toNat_lt
  have hb := b.toNat_lt
  have hc := c.toNat_lt
  have hd := d.toNat_lt
  show (a.toUInt32 ||| (b.toUInt32 <<< 8) ||| (c.toUInt32 <<< 16) ||| (d.toUInt32 <<< 24)).toNat = _
  simp only [UInt32.toNat_or, UInt32.toNat_shiftLeft, UInt8.toNat_toUInt32]
  have h8 : (8 : UInt32).toNat % 32 = 8 := rfl
  have h16 : (16 : UInt32).toNat % 32 = 16 := rfl
  have h24 : (24 : UInt32).toNat % 32 = 24 := rfl
  rw [h8, h16, h24]
  simp only [Nat.shiftLeft_eq]
  rw [Nat.mod_eq_of_lt (by omega), Nat.mod_eq_of_lt (by omega), Nat.mod_eq_of_lt (by omega)]
  have h1 : a.toNat ||| b.toNat * 2 ^ 8 = a.toNat + 2 ^ 8 * b.toNat := by
    rw [Nat.lor_comm, Nat.mul_comm, ← Nat.two_pow_add_eq_or_of_lt ha]
    omega
  have h2 : (a.toNat + 2 ^ 8 * b.toNat) ||| c.toNat * 2 ^ 16 = a.toNat + 2 ^ 8 * b.toNat + 2 ^ 16 * c.toNat := by
    rw [Nat.lor_comm, Nat.mul_comm, ← Nat.two_pow_add_eq_or_of_lt (by omega)]
    omega
  have h3 : (a.toNat + 2 ^ 8 * b.toNat + 2 ^ 16 * c.toNat) ||| d.toNat * 2 ^ 24 =
      a.toNat + 2 ^ 8 * b.toNat + 2 ^ 16 * c.toNat + 2 ^ 24 * d.toNat := by
    rw [Nat.lor_comm, Nat.mul_comm, ← Nat.two_pow_add_eq_or_of_lt (by omega)]
    omega
  rw [h1, h2, h3]

theorem readU32Le_u32Le {n : ℕ} (h : n < 2 ^ 32) (rest : Bytes) : (readU32Le (u32Le n ++ rest)).toNat = n := by
  show (readU32Le (_ :: _ :: _ :: _ :: rest)).toNat = n
  rw [readU32Le_toNat]
  simp only [UInt8.toNat_ofNat']
  omega

theorem u32Le_readU32Le (a b c d : UInt8) (rest : Bytes) :
    u32Le (readU32Le (a :: b :: c :: d :: rest)).toNat = [a, b, c, d] := by
  have ha := a.toNat_lt
  have hb := b.toNat_lt
  have hc := c.toNat_lt
  have hd := d.toNat_lt
  rw [readU32Le_toNat]
  unfold u32Le
  have hbyte : ∀ {x : UInt8} {n : ℕ}, n % 2 ^ 8 = x.toNat → UInt8.ofNat n = x := by
    intro x n h
    apply UInt8.toNat_inj.mp
    rw [UInt8.toNat_ofNat']
    exact h
  rw [hbyte (x := a) (by omega), hbyte (x := b) (by omega), hbyte (x := c) (by omega), hbyte (x := d) (by omega)]

/-! ### The checksum -/

theorem crcRound_toNat (c : UInt32) : (crcRound c).toNat = HostProtocol.crcRound c.toNat := by
  unfold crcRound HostProtocol.crcRound
  have h1 : (c &&& 1).toNat = c.toNat % 2 := by
    rw [UInt32.toNat_and]
    exact Nat.and_one_is_mod _
  rcases Nat.mod_two_eq_zero_or_one c.toNat with h | h
  · have hc : c &&& 1 = 0 := UInt32.toNat_inj.mp (h1.trans h)
    rw [hc, Nat.and_one_is_mod, h]
    simp [UInt32.toNat_shiftRight]
  · have hc : c &&& 1 = 1 := UInt32.toNat_inj.mp (h1.trans h)
    rw [hc, Nat.and_one_is_mod, h]
    simp [UInt32.toNat_xor, UInt32.toNat_shiftRight]

theorem invert32_toNat (c : UInt32) : (~~~ c).toNat = HostProtocol.invert32 c.toNat := by
  have hc := c.toNat_lt
  have hsize : UInt32.size = 2 ^ 32 := rfl
  unfold HostProtocol.invert32
  rw [UInt32.toNat_not]
  omega

theorem crc32_toNat (data : Bytes) : (crc32 data).toNat = HostProtocol.crc32 data := by
  have hrounds : Function.Semiconj UInt32.toNat crcRound HostProtocol.crcRound := crcRound_toNat
  have hfold : ∀ (data : Bytes) (c : UInt32),
      (data.foldl (fun crc value => Nat.iterate crcRound 8 (crc ^^^ value.toUInt32)) c).toNat =
        data.foldl (fun value byte => Nat.iterate HostProtocol.crcRound 8 (value ^^^ byte.toNat)) c.toNat := by
    intro data
    induction data with
    | nil => exact fun _ => rfl
    | cons b data ih =>
      intro c
      rw [foldl_cons, foldl_cons, ih, (hrounds.iterate_right 8).eq, UInt32.toNat_xor, UInt8.toNat_toUInt32]
  unfold crc32 HostProtocol.crc32
  rw [invert32_toNat, hfold]
  rfl

theorem crc32_lt (data : Bytes) : HostProtocol.crc32 data < 2 ^ 32 := by
  rw [← crc32_toNat]
  exact UInt32.toNat_lt _

/-! ### The layout of a frame -/

def fields (version type : UInt8) (requestId sequence length crc : ℕ) : Bytes :=
  [66, 85, version, type] ++ u32Le requestId ++ u32Le sequence ++ u32Le length ++ u32Le crc

def layout (version type : UInt8) (requestId sequence : ℕ) (payload : Bytes) : Bytes :=
  fields version type requestId sequence payload.length (HostProtocol.crc32 payload) ++ u32Le (HostProtocol.crc32
      (fields version type requestId sequence payload.length (HostProtocol.crc32 payload))) ++ payload

theorem packU8_ok {n : ℤ} {bytes : Bytes} (h : packU8 n = .ok bytes) :
    ∃ m : ℕ, n = m ∧ m < 2 ^ 8 ∧ bytes = [UInt8.ofNat m] := by
  unfold packU8 at h
  split_ifs at h with hn
  refine ⟨n.toNat, by omega, by omega, (Except.ok.inj h).symm⟩

theorem packU32_ok {n : ℤ} {bytes : Bytes} (h : packU32 n = .ok bytes) :
    ∃ m : ℕ, n = m ∧ m < 2 ^ 32 ∧ bytes = u32Le m := by
  unfold packU32 at h
  split_ifs at h with hn
  refine ⟨n.toNat, by omega, by omega, (Except.ok.inj h).symm⟩

theorem packU32_natCast {n : ℕ} (h : n < 2 ^ 32) : packU32 n = .ok (u32Le n) := by
  unfold packU32
  rw [if_pos (by omega), Int.toNat_natCast]

theorem packFields_eq {t : FrameType} {version requestId sequence : ℕ} {payload : Bytes} (hver : version < 2 ^ 8)
    (hid : requestId < 2 ^ 32) (hseq : sequence < 2 ^ 32) (hlen : payload.length < 2 ^ 32) :
    packFields ⟨t, requestId, sequence, payload, version⟩ =
      .ok (fields (UInt8.ofNat version) (frameTypeNumber t) requestId sequence payload.length
        (HostProtocol.crc32 payload)) := by
  have hpack : packU8 (version : ℤ) = .ok [UInt8.ofNat version] := by
    unfold packU8
    rw [if_pos (by omega), Int.toNat_natCast]
  unfold packFields
  dsimp only
  rw [hpack, packU32_natCast hid, packU32_natCast hseq, packU32_natCast hlen, packU32_natCast (crc32_lt payload)]
  simp only [bind, Except.bind, pure, Except.pure, fields, frameMagic, cons_append, nil_append]

theorem ok_bind {α β : Type} (a : α) (f : α → Except String β) : (Except.ok a >>= f) = f a := rfl

theorem encode_header {f : HostFrame} {header : Bytes} (h : packFields f = .ok header) : (do
      let header ← packFields f
      let headerCrc ← packU32 (HostProtocol.crc32 header)
      return header ++ headerCrc ++ f.payload : Except String Bytes) =
      .ok (header ++ u32Le (HostProtocol.crc32 header) ++ f.payload) := by
  rw [h, ok_bind, packU32_natCast (crc32_lt header), ok_bind]
  rfl

theorem encodeFrame_eq_ok {f : HostFrame} {bytes : Bytes} :
    encodeFrame f = .ok bytes ↔ ∃ version requestId sequence : ℕ,
      f = ⟨f.frameType, requestId, sequence, f.payload, version⟩ ∧
      version < 2 ^ 8 ∧ requestId < 2 ^ 32 ∧ sequence < 2 ^ 32 ∧
      f.payload.length ≤ HostProtocol.maxFramePayload ∧ (f.frameType = .data ∨ f.payload = []) ∧
      bytes = layout (UInt8.ofNat version) (frameTypeNumber f.frameType) requestId sequence f.payload := by
  obtain ⟨t, id, number, payload, v⟩ := f
  unfold encodeFrame
  dsimp only
  by_cases hlen : payload.length > HostProtocol.maxFramePayload
  · rw [if_pos hlen]
    constructor
    · intro h
      cases h
    · rintro ⟨_, _, _, _, _, _, _, hle, _⟩
      exact absurd hle (not_le_of_gt hlen)
  by_cases hctl : t ≠ .data ∧ payload ≠ []
  · rw [if_neg hlen, if_pos hctl]
    constructor
    · intro h
      cases h
    · rintro ⟨_, _, _, _, _, _, _, _, h | h, _⟩
      · exact absurd h hctl.1
      · exact absurd h hctl.2
  rw [if_neg hlen, if_neg hctl]
  have hlt : payload.length < 2 ^ 32 := by
    have : HostProtocol.maxFramePayload < 2 ^ 32 := by decide
    omega
  have hkind : t = .data ∨ payload = [] := by
    by_contra hne
    rw [not_or] at hne
    exact hctl hne
  constructor
  · intro h
    have hpacked : ∃ version requestId sequence : ℕ, v = version ∧ id = requestId ∧ number = sequence ∧
        version < 2 ^ 8 ∧ requestId < 2 ^ 32 ∧ sequence < 2 ^ 32 := by
      unfold packFields at h
      dsimp only at h
      cases hv : packU8 v with
      | error e => rw [hv] at h; cases h
      | ok version =>
      cases hid : packU32 id with
      | error e => rw [hv, hid] at h; cases h
      | ok requestId =>
      cases hn : packU32 number with
      | error e => rw [hv, hid, hn] at h; cases h
      | ok sequence =>
      obtain ⟨a, hva, ha, _⟩ := packU8_ok hv
      obtain ⟨b, hib, hb, _⟩ := packU32_ok hid
      obtain ⟨c, hnc, hc, _⟩ := packU32_ok hn
      exact ⟨a, b, c, hva, hib, hnc, ha, hb, hc⟩
    obtain ⟨version, requestId, sequence, rfl, rfl, rfl, ha, hb, hc⟩ := hpacked
    rw [encode_header (packFields_eq ha hb hc hlt), Except.ok.injEq] at h
    refine ⟨version, requestId, sequence, rfl, ha, hb, hc, by omega, hkind, ?_⟩
    unfold layout
    exact h.symm
  · rintro ⟨version, requestId, sequence, heq, ha, hb, hc, _, _, rfl⟩
    simp only [HostFrame.mk.injEq, true_and] at heq
    obtain ⟨rfl, rfl, rfl⟩ := heq
    rw [encode_header (packFields_eq ha hb hc hlt)]
    unfold layout
    rfl

/-! ### The parser on a layout -/

section Fields

variable {v ty : UInt8} {a b n p c : ℕ} {tail : Bytes}

theorem fields_length : (fields v ty a b n p).length = 20 := rfl

theorem fields_drop_4 : (fields v ty a b n p ++ tail).drop 4 = u32Le a ++ (u32Le b ++ u32Le n ++ u32Le p ++ tail) :=
  rfl

theorem fields_drop_8 : (fields v ty a b n p ++ tail).drop 8 = u32Le b ++ (u32Le n ++ u32Le p ++ tail) := rfl

theorem fields_drop_12 : (fields v ty a b n p ++ tail).drop 12 = u32Le n ++ (u32Le p ++ tail) := rfl

theorem fields_drop_16 : (fields v ty a b n p ++ tail).drop 16 = u32Le p ++ tail := rfl

theorem payloadLength_fields (hn : n < 2 ^ 32) : payloadLength (fields v ty a b n p ++ tail) = n := by
  unfold payloadLength
  rw [fields_drop_12, readU32Le_u32Le hn]

theorem readU32Le_eq_crc32 {data : Bytes} (hc : c < 2 ^ 32) :
    readU32Le (u32Le c ++ tail) = crc32 data ↔ c = HostProtocol.crc32 data := by
  rw [← UInt32.toNat_inj, readU32Le_u32Le hc, crc32_toNat]

theorem headerError_fields {maxPayload : ℕ} (hn : n < 2 ^ 32) (hc : c < 2 ^ 32) :
    headerError maxPayload (fields v ty a b n p ++ u32Le c) =
      if v.toNat ≠ protocolVersion then some "unsupported frame version"
      else if n > maxPayload then some "frame payload is too large"
      else if c ≠ HostProtocol.crc32 (fields v ty a b n p) then some "bad frame header crc"
      else none := by
  have hmagic : (fields v ty a b n p ++ u32Le c).take 2 = frameMagic := rfl
  have hver : (fields v ty a b n p ++ u32Le c).getD 2 0 = v := rfl
  have hdrop : (fields v ty a b n p ++ u32Le c).drop headerWithoutCrcSize = u32Le c ++ [] := by
    rw [append_nil]
    exact drop_left' fields_length
  have htake : (fields v ty a b n p ++ u32Le c).take headerWithoutCrcSize = fields v ty a b n p :=
    take_left' fields_length
  unfold headerError
  rw [if_neg (not_not.mpr hmagic), hver, payloadLength_fields hn, hdrop, htake]
  simp only [ne_eq, readU32Le_eq_crc32 hc]

theorem readFrame_fields (ha : a < 2 ^ 32) (hb : b < 2 ^ 32) (hn : n < 2 ^ 32) (hp : p < 2 ^ 32) :
    readFrame (fields v ty a b n p ++ (u32Le c ++ tail)) =
      if p ≠ HostProtocol.crc32 tail then .error "bad frame payload crc"
      else
        match frameType ty with
        | none => .error "unsupported frame type"
        | some type =>
          if type ≠ .data ∧ n ≠ 0 then .error "control frame must not contain a payload"
          else .ok ⟨type, v, a, UInt32.ofNat b, tail⟩ := by
  have hver : (fields v ty a b n p ++ (u32Le c ++ tail)).getD 2 0 = v := rfl
  have htype : (fields v ty a b n p ++ (u32Le c ++ tail)).getD 3 0 = ty := rfl
  have hdrop : (fields v ty a b n p ++ (u32Le c ++ tail)).drop frameHeaderSize = tail := rfl
  have hseq : readU32Le (u32Le b ++ (u32Le n ++ u32Le p ++ (u32Le c ++ tail))) = UInt32.ofNat b := by
    rw [← UInt32.toNat_inj, readU32Le_u32Le hb, UInt32.toNat_ofNat', Nat.mod_eq_of_lt hb]
  unfold readFrame
  rw [hver, htype, hdrop, fields_drop_16, payloadLength_fields hn, fields_drop_4, fields_drop_8,
    readU32Le_u32Le ha, hseq]
  cases frameType ty <;> simp only [ne_eq, readU32Le_eq_crc32 hp]

variable {maxPayload : ℕ} {buffer : List RxByte}

theorem next_fields (hbuf : values buffer = fields v ty a b n p ++ (u32Le c ++ tail)) (hn : n < 2 ^ 32)
    (hc : c < 2 ^ 32) :
    next maxPayload buffer =
      if v.toNat ≠ protocolVersion then .error "unsupported frame version"
      else if n > maxPayload then .error "frame payload is too large"
      else if c ≠ HostProtocol.crc32 (fields v ty a b n p) then .error "bad frame header crc"
      else takeFrame (frameHeaderSize + n) buffer := by
  have hlen : buffer.length = frameHeaderSize + tail.length := by
    rw [← length_values, hbuf]
    simp only [length_append, fields_length, u32Le, length_cons, length_nil, frameHeaderSize]
    omega
  have htake : (values buffer).take frameHeaderSize = fields v ty a b n p ++ u32Le c := by
    rw [hbuf, ← append_assoc]
    exact take_left' rfl
  unfold Protocol.next frameSize
  rw [if_neg (by omega), htake, payloadLength_fields hn, headerError_fields hn hc]
  split_ifs <;> rfl

theorem frameType_eq_some {t : FrameType} : frameType ty = some t ↔ ty = frameTypeNumber t := by
  constructor
  · intro h
    unfold frameType at h
    split at h <;> cases h <;> rfl
  · rintro rfl
    cases t <;> rfl

end Fields

def sent (frame : BinaryFrame) : HostFrame :=
  ⟨frame.type, frame.requestId, frame.sequence.toNat, frame.payload, frame.version.toNat⟩

variable {maxPayload : ℕ} {buffer rest : List RxByte}

theorem next_encodeFrame {f : HostFrame} (hencode : encodeFrame f = .ok (values buffer)) (hver : f.version = 1)
    (hlimit : f.payload.length ≤ maxPayload) :
    ∃ frame, next maxPayload buffer = .ok (some (frame, [])) ∧ sent frame = f := by
  obtain ⟨version, requestId, sequence, hf, _, ha, hb, hlength, hkind, hbuf⟩ := encodeFrame_eq_ok.mp hencode
  obtain rfl : version = 1 := by
    have hone := congrArg HostFrame.version hf
    rw [hver] at hone
    change (1 : ℤ) = version at hone
    omega
  have hn : f.payload.length < 2 ^ 32 := by
    have hmax : HostProtocol.maxFramePayload < 2 ^ 32 := by decide
    omega
  unfold layout at hbuf
  rw [append_assoc] at hbuf
  have hsize : buffer.length = frameHeaderSize + f.payload.length := by
    rw [← length_values, hbuf]
    simp only [length_append, fields_length, u32Le, length_cons, length_nil, frameHeaderSize]
    omega
  have htake : (values buffer).take (frameHeaderSize + f.payload.length) = values buffer :=
    take_of_length_le (by rw [length_values, hsize])
  have hctl : ¬ (f.frameType ≠ .data ∧ f.payload.length ≠ 0) := by
    rintro ⟨hne, hlen⟩
    rcases hkind with h | h
    · exact hne h
    · exact hlen (by rw [h]; rfl)
  refine ⟨⟨f.frameType, 1, requestId, UInt32.ofNat sequence, f.payload⟩, ?_, ?_⟩
  · rw [next_fields hbuf hn (crc32_lt _), if_neg (by decide), if_neg (by omega), if_neg (not_not.mpr rfl)]
    unfold takeFrame
    rw [if_neg (by omega), htake, hbuf, readFrame_fields ha hb hn (crc32_lt _), if_neg (not_not.mpr rfl),
      frameType_eq_some.mpr rfl]
    dsimp only
    rw [if_neg hctl, drop_eq_nil_of_le hsize.le]
    rfl
  · rw [hf]
    unfold sent
    simp only [UInt32.toNat_ofNat', Nat.mod_eq_of_lt hb]
    rfl

theorem exists_word {bytes : Bytes} (h : 4 ≤ bytes.length) :
    ∃ (n : ℕ) (tail : Bytes), n < 2 ^ 32 ∧ bytes = u32Le n ++ tail ∧ bytes.length = 4 + tail.length := by
  obtain _ | ⟨a, _ | ⟨b, _ | ⟨c, _ | ⟨d, tail⟩⟩⟩⟩ := bytes
  · simp at h
  · simp at h
  · simp at h
  · simp at h
  refine ⟨(readU32Le [a, b, c, d]).toNat, tail, UInt32.toNat_lt _, ?_, ?_⟩
  · rw [u32Le_readU32Le]
    rfl
  · simp only [length_cons]
    omega

theorem exists_fields {bytes : Bytes} (hlen : frameHeaderSize ≤ bytes.length) (hmagic : bytes.take 2 = frameMagic) :
    ∃ (v ty : UInt8) (a b n p c : ℕ) (tail : Bytes), a < 2 ^ 32 ∧ b < 2 ^ 32 ∧ n < 2 ^ 32 ∧ p < 2 ^ 32 ∧ c < 2 ^ 32 ∧
      bytes = fields v ty a b n p ++ (u32Le c ++ tail) := by
  unfold frameHeaderSize at hlen
  obtain _ | ⟨m0, _ | ⟨m1, _ | ⟨v, _ | ⟨ty, bytes⟩⟩⟩⟩ := bytes
  · simp at hlen
  · simp at hlen
  · simp at hlen
  · simp at hlen
  simp only [length_cons] at hlen
  obtain ⟨a, bytes, ha, rfl, hla⟩ := @exists_word bytes (by omega)
  obtain ⟨b, bytes, hb, rfl, hlb⟩ := @exists_word bytes (by omega)
  obtain ⟨n, bytes, hn, rfl, hln⟩ := @exists_word bytes (by omega)
  obtain ⟨p, bytes, hp, rfl, hlp⟩ := @exists_word bytes (by omega)
  obtain ⟨c, tail, hc, rfl, _⟩ := @exists_word bytes (by omega)
  have h0 : m0 = 66 := congrArg (·.getD 0 0) hmagic
  have h1 : m1 = 85 := congrArg (·.getD 1 0) hmagic
  refine ⟨v, ty, a, b, n, p, c, tail, ha, hb, hn, hp, hc, ?_⟩
  rw [h0, h1]
  rfl

theorem encodeFrame_sent {frame : BinaryFrame} (h : next maxPayload buffer = .ok (some (frame, rest)))
    (hlimit : frame.payload.length ≤ HostProtocol.maxFramePayload) :
    ∃ consumed, buffer = consumed ++ rest ∧ encodeFrame (sent frame) = .ok (values consumed) := by
  obtain ⟨bytes, rfl, hlen, hmagic, hsgl⟩ := next_some_split h
  refine ⟨bytes, rfl, ?_⟩
  obtain ⟨v, ty, a, b, n, p, c, tail, ha, hb, hn, hp, hc, hvals⟩ :=
    exists_fields (by rwa [length_values]) hmagic
  have hsize : bytes.length = frameHeaderSize + tail.length := by
    rw [← length_values, hvals]
    simp only [length_append, fields_length, u32Le, length_cons, length_nil, frameHeaderSize]
    omega
  rw [next_fields hvals hn hc] at hsgl
  split_ifs at hsgl with hver hmax hcrc
  unfold takeFrame at hsgl
  by_cases hshort : bytes.length < frameHeaderSize + n
  · rw [if_pos hshort] at hsgl
    cases hsgl
  rw [if_neg hshort] at hsgl
  split at hsgl
  · cases hsgl
  next f hread =>
  simp only [Except.ok.injEq, Option.some.injEq, Prod.mk.injEq, drop_eq_nil_iff] at hsgl
  obtain ⟨rfl, hall⟩ := hsgl
  obtain rfl : tail.length = n := by omega
  rw [take_of_length_le (by rw [length_values]; omega), hvals, readFrame_fields ha hb hn hp] at hread
  split_ifs at hread with hpay
  split at hread
  · cases hread
  next t htype =>
  split_ifs at hread with hctl
  cases hread
  rw [frameType_eq_some] at htype
  obtain rfl := not_not.mp hpay
  obtain rfl := not_not.mp hcrc
  rw [hvals, ← append_assoc]
  refine encodeFrame_eq_ok.mpr ⟨v.toNat, a, b, ?_, v.toNat_lt, ha, hb, hlimit, ?_, ?_⟩
  · simp only [sent, UInt32.toNat_ofNat', Nat.mod_eq_of_lt hb]
  · by_cases ht : t = .data
    · exact .inl ht
    · refine .inr (length_eq_zero_iff.mp ?_)
      by_contra hne
      exact hctl ⟨ht, hne⟩
  · rw [UInt8.ofNat_toNat]
    unfold layout
    rw [htype]
    rfl

/-! ### Streams -/

/-- What is called on a parser. -/
inductive Call
  | append (data : List RxByte)
  | next
  deriving DecidableEq

/-- The frames that a call returns, and the buffer after it. -/
def call (maxPayload : ℕ) (buffer : List RxByte) : Call → Except String (List BinaryFrame × List RxByte)
  | .append data => .ok ([], buffer ++ data)
  | .next =>
    match next maxPayload buffer with
    | .error error => .error error
    | .ok none => .ok ([], buffer)
    | .ok (some (frame, rest)) => .ok ([frame], rest)

def calls (maxPayload : ℕ) : List Call → List RxByte → Except String (List BinaryFrame × List RxByte)
  | [], buffer => .ok ([], buffer)
  | c :: cs, buffer =>
    match call maxPayload buffer c with
    | .error error => .error error
    | .ok (frames, buffer) => (calls maxPayload cs buffer).map fun fr => (frames ++ fr.1, fr.2)

def appended : List Call → List RxByte
  | [] => []
  | .append data :: cs => data ++ appended cs
  | .next :: cs => appended cs

theorem calls_cons (c : Call) (cs : List Call) (buffer : List RxByte) : calls maxPayload (c :: cs) buffer =
      match call maxPayload buffer c with
      | .error error => .error error
      | .ok fr => (calls maxPayload cs fr.2).map fun fr' => (fr.1 ++ fr'.1, fr'.2) := by
  rw [calls]
  cases call maxPayload buffer c <;> rfl

theorem calls_append {cs ds : List Call} {frames : List BinaryFrame} {buffer buffer' : List RxByte}
    (h : calls maxPayload cs buffer = .ok (frames, buffer')) :
    calls maxPayload (cs ++ ds) buffer = (calls maxPayload ds buffer').map fun fr => (frames ++ fr.1, fr.2) := by
  induction cs generalizing buffer frames with
  | nil =>
    cases h
    rw [nil_append]
    cases calls maxPayload ds buffer' <;> rfl
  | cons c cs ih =>
    rw [cons_append, calls_cons]
    rw [calls_cons] at h
    cases hc : call maxPayload buffer c with
    | error e =>
      rw [hc] at h
      cases h
    | ok fr =>
      rw [hc] at h
      dsimp only at h ⊢
      cases hcs : calls maxPayload cs fr.2 with
      | error e =>
        rw [hcs] at h
        cases h
      | ok fr' =>
        rw [hcs] at h
        cases h
        rw [ih hcs]
        cases calls maxPayload ds fr'.2 <;> simp [Except.map]

/-- The pieces of a stream, each with the frame that it is. -/
def Pieces (maxPayload : ℕ) (pieces : List (List RxByte × BinaryFrame)) : Prop :=
  ∀ piece ∈ pieces, next maxPayload piece.1 = .ok (some (piece.2, []))

def bytesOf (pieces : List (List RxByte × BinaryFrame)) : List RxByte := (pieces.map (·.1)).flatten

/-- On a part of a stream the parser gives its first frame or waits. -/
theorem call_next_pieces {pieces : List (List RxByte × BinaryFrame)} {more : List RxByte}
    (hpieces : Pieces maxPayload pieces) (h : buffer ++ more = bytesOf pieces) :
    ∃ (taken left : List (List RxByte × BinaryFrame)) (buffer' : List RxByte), pieces = taken ++ left ∧
      call maxPayload buffer .next = .ok (taken.map (·.2), buffer') ∧ buffer' ++ more = bytesOf left := by
  unfold call
  cases pieces with
  | nil =>
    obtain ⟨rfl, rfl⟩ := append_eq_nil_iff.mp h
    exact ⟨[], [], [], rfl, by rw [next_of_short (by decide)]; rfl, rfl⟩
  | cons piece pieces =>
    have hnext := hpieces piece mem_cons_self
    have hall : next maxPayload (buffer ++ more) = .ok (some (piece.2, bytesOf pieces)) := by
      rw [h]
      exact next_append_some hnext
    cases hbuf : next maxPayload buffer with
    | error e =>
      rw [next_append_error hbuf] at hall
      cases hall
    | ok r =>
      cases r with
      | none => exact ⟨[], piece :: pieces, buffer, rfl, rfl, h⟩
      | some fr =>
        rw [next_append_some hbuf] at hall
        obtain ⟨hfr, hrest⟩ := Prod.mk.inj (Option.some.inj (Except.ok.inj hall))
        exact ⟨[piece], pieces, fr.2, rfl, by rw [map_singleton, ← hfr], hrest⟩

/-- After any calls: frames from the front of the stream, and the buffer where they end. -/
theorem calls_pieces {pieces : List (List RxByte × BinaryFrame)} {cs : List Call}
    (hpieces : Pieces maxPayload pieces) (h : buffer ++ appended cs = bytesOf pieces) :
    ∃ taken left : List (List RxByte × BinaryFrame), pieces = taken ++ left ∧
      calls maxPayload cs buffer = .ok (taken.map (·.2), bytesOf left) := by
  induction cs generalizing buffer pieces with
  | nil =>
    rw [appended, append_nil] at h
    exact ⟨[], pieces, rfl, by rw [h]; rfl⟩
  | cons c cs ih =>
    have hcall : ∃ (taken left : List (List RxByte × BinaryFrame)) (buffer' : List RxByte), pieces = taken ++ left ∧
        call maxPayload buffer c = .ok (taken.map (·.2), buffer') ∧ buffer' ++ appended cs = bytesOf left := by
      cases c with
      | append data =>
        rw [appended, ← append_assoc] at h
        exact ⟨[], pieces, buffer ++ data, rfl, rfl, h⟩
      | next => exact call_next_pieces hpieces h
    obtain ⟨taken, left, buffer', rfl, hc, hleft⟩ := hcall
    obtain ⟨taken', left', rfl, hcs⟩ := ih (fun piece hp => hpieces piece (mem_append_right _ hp)) hleft
    refine ⟨taken ++ taken', left', (append_assoc ..).symm, ?_⟩
    rw [calls_cons, hc]
    dsimp only
    rw [hcs, map_append]
    rfl

/-- As many calls of `next` as there are frames empty the buffer. -/
theorem calls_replicate {pieces : List (List RxByte × BinaryFrame)} {n : ℕ} (hpieces : Pieces maxPayload pieces)
    (hn : pieces.length ≤ n) :
    calls maxPayload (List.replicate n .next) (bytesOf pieces) = .ok (pieces.map (·.2), []) := by
  induction n generalizing pieces with
  | zero =>
    obtain rfl := length_eq_zero_iff.mp (Nat.le_zero.mp hn)
    rfl
  | succ n ih =>
    rw [replicate_succ, calls_cons]
    cases pieces with
    | nil =>
      have hnil : call maxPayload (bytesOf []) .next = .ok ([], bytesOf []) := by
        unfold call
        rw [next_of_short (by decide)]
      rw [hnil]
      dsimp only
      rw [@ih [] hpieces (Nat.zero_le _)]
      rfl
    | cons piece pieces =>
      have hcons : call maxPayload (bytesOf (piece :: pieces)) .next = .ok ([piece.2], bytesOf pieces) := by
        have hbytes : bytesOf (piece :: pieces) = piece.1 ++ bytesOf pieces := rfl
        unfold call
        rw [hbytes, next_append_some (hpieces piece mem_cons_self)]
        rfl
      rw [hcons]
      dsimp only
      rw [ih (fun p hp => hpieces p (mem_cons_of_mem _ hp)) (by simpa using hn)]
      rfl

theorem exists_pieces {frames : List HostFrame} {encoded : List Bytes}
    (h : List.Forall₂ (fun f bytes => encodeFrame f = .ok bytes ∧ f.version = 1 ∧ f.payload.length ≤ maxPayload)
      frames encoded) (hbuf : values buffer = encoded.flatten) :
    ∃ pieces, Pieces maxPayload pieces ∧ buffer = bytesOf pieces ∧ pieces.map (fun piece => sent piece.2) = frames := by
  induction h generalizing buffer with
  | nil =>
    obtain rfl := map_eq_nil_iff.mp hbuf
    exact ⟨[], by simp [Pieces], rfl, rfl⟩
  | cons hf _ ih =>
    rw [flatten_cons] at hbuf
    obtain ⟨head, tail, rfl, hhead, htail⟩ := map_eq_append_iff.mp hbuf
    obtain ⟨pieces, hpieces, rfl, hsent⟩ := ih htail
    rw [← hhead] at hf
    obtain ⟨frame, hnext, hfr⟩ := @next_encodeFrame maxPayload head _ hf.1 hf.2.1 hf.2.2
    refine ⟨(head, frame) :: pieces, ?_, rfl, ?_⟩
    · intro piece hp
      rcases mem_cons.mp hp with rfl | hp
      · exact hnext
      · exact hpieces piece hp
    · rw [map_cons, hfr, hsent]

/-- Frames of the version that the device knows, with payloads that it takes, go through the parser
unchanged, in whatever parts their bytes come; and a frame that the parser takes is one that the host can
write, in these bytes. -/
theorem codec (maxPayload : ℕ) : (∀ (frames : List HostFrame) (encoded : List Bytes) (cs : List Call) (n : ℕ),
      List.Forall₂ (fun f bytes => encodeFrame f = .ok bytes ∧ f.version = 1 ∧ f.payload.length ≤ maxPayload)
        frames encoded →
      values (appended cs) = encoded.flatten → frames.length ≤ n →
      ∃ parsed, calls maxPayload (cs ++ List.replicate n .next) [] = .ok (parsed, []) ∧ parsed.map sent = frames) ∧
    (∀ (buffer rest : List RxByte) (frame : BinaryFrame),
      next maxPayload buffer = .ok (some (frame, rest)) →
      frame.payload.length ≤ HostProtocol.maxFramePayload →
      ∃ consumed, buffer = consumed ++ rest ∧ encodeFrame (sent frame) = .ok (values consumed)) := by
  constructor
  · intro frames encoded cs n hfrs happended hn
    obtain ⟨pieces, hpieces, hbytes, hsent⟩ := exists_pieces hfrs happended
    obtain ⟨taken, left, rfl, hcs⟩ := @calls_pieces maxPayload [] pieces cs hpieces hbytes
    have hlen : (taken ++ left).length = frames.length := by rw [← hsent, length_map]
    rw [length_append] at hlen
    have hleft := calls_replicate (n := n)
      (fun piece hp => hpieces piece (mem_append_right taken hp) : Pieces maxPayload left) (by omega)
    refine ⟨taken.map (·.2) ++ left.map (·.2), ?_, ?_⟩
    · rw [calls_append hcs, hleft]
      rfl
    · rw [← map_append, map_map]
      exact hsent
  · exact fun buffer rest frame h hlimit => encodeFrame_sent h hlimit

def hello : HostFrame := ⟨.data, 7, 3, [104, 101, 108, 108, 111], 1⟩

def goodbye : HostFrame := ⟨.endOfData, 7, 4, [], 1⟩

def bytesFrom (bytes : Bytes) : List RxByte := bytes.map (⟨·, true⟩)

def encodedOf (f : HostFrame) : Bytes := (encodeFrame f).toOption.getD []

/-- Two frames, cut within the first and within the second. -/
def twoFrames : List Call :=
  let bytes := bytesFrom (encodedOf hello ++ encodedOf goodbye)
  [.next, .append (bytes.take 10), .next, .append ((bytes.drop 10).take 30), .next, .next, .append (bytes.drop 40)]

theorem codec_twoFrames : (∃ parsed, calls 64 (twoFrames ++ List.replicate 2 .next) [] = .ok (parsed, []) ∧
      parsed.map sent = [hello, goodbye]) ∧
    ∃ consumed, bytesFrom (encodedOf hello) = consumed ++ [] ∧
      encodeFrame (sent ⟨.data, 1, 7, 3, [104, 101, 108, 108, 111]⟩) = .ok (values consumed) :=
  ⟨(codec 64).1 [hello, goodbye] [encodedOf hello, encodedOf goodbye] twoFrames 2
      (.cons (by decide +kernel) (.cons (by decide +kernel) .nil)) (by decide +kernel) (by decide),
    (codec 64).2 (bytesFrom (encodedOf hello)) [] ⟨.data, 1, 7, 3, [104, 101, 108, 108, 111]⟩ (by decide +kernel)
      (by decide)⟩

/-- A frame of another version has an encoding, and the device refuses it. -/
theorem codec_version_two :
    ∃ (f : HostFrame) (buffer : List RxByte), f.payload.length ≤ 64 ∧ encodeFrame f = .ok (values buffer) ∧
      next 64 buffer = .error "unsupported frame version" :=
  ⟨⟨.data, 7, 3, [104], 2⟩, bytesFrom (encodedOf ⟨.data, 7, 3, [104], 2⟩), by decide, by decide +kernel,
    by decide +kernel⟩

end Brookesia.Usb.Codec
