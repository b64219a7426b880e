import Mathlib

/-! # Buffer outputs

A frame is copied row by row into the buffer of an output. All sizes are products in `size_t`, the numbers below
`2 ^ w`: registration guards the size of the whole buffer, given that of a row, but not the size of a row. -/

namespace Brookesia.DisplayService.Buffers

open List Option

inductive PixelFormat
  | rgb565
  | rgb888
  | max
  deriving DecidableEq

/-- A pointer, null or not, and the size that goes with it. -/
structure RawBuffer (w : ℕ) where
  dataPtr : Bool
  dataSize : BitVec w
  isConst : Bool

structure BufferOutputConfig (w : ℕ) where
  name : String
  width : UInt32
  height : UInt32
  pixelFormat : PixelFormat
  buffer : RawBuffer w
  strideBytes : BitVec w

structure FrameInfo where
  x : UInt32
  y : UInt32
  width : UInt32
  height : UInt32
  pixelFormat : PixelFormat

/-- The arguments of a `memcpy`, its pointers as offsets in the frame data and in the buffer. -/
structure Copy (w : ℕ) where
  source : BitVec w
  target : BitVec w
  size : BitVec w

variable {w : ℕ}

def RawBuffer.toPtr (buffer : RawBuffer w) : Bool :=
  !buffer.isConst && buffer.dataPtr

def bytesPerPixel (w : ℕ) : PixelFormat → BitVec w
  | .rgb565 => 2
  | .rgb888 => 3
  | .max => 0

def toSize (w : ℕ) (n : UInt32) : BitVec w :=
  n.toBitVec.setWidth w

def BufferOutputConfig.stride (config : BufferOutputConfig w) (bpp : BitVec w) : BitVec w :=
  if config.strideBytes = 0 then toSize w config.width * bpp else config.strideBytes

def isBufferOutputValid (config : BufferOutputConfig w) (bpp : BitVec w) : Bool :=
  if config.width = 0 ∨ config.height = 0 ∨ bpp = 0 then false
  else if config.buffer.toPtr = false then false
  else
    let rowBytes := toSize w config.width * bpp
    let strideBytes := config.stride bpp
    if strideBytes < rowBytes then false
    else if config.height > 1 ∧ strideBytes > (BitVec.allOnes w - rowBytes) / toSize w (config.height - 1) then false
    else config.buffer.dataSize ≥ strideBytes * toSize w (config.height - 1) + rowBytes

/-- The output that `register_output` makes, beside outputs of the given names: the configuration, with the stride
that goes into the buffer context. -/
def registerOutput (names : List String) (config : BufferOutputConfig w) : Option (BufferOutputConfig w) :=
  let bpp := bytesPerPixel w config.pixelFormat
  if config.name = "" then none
  else if isBufferOutputValid config bpp = false then none
  else if config.name ∈ names then none
  else some { config with strideBytes := config.stride bpp }

def isFrameValidForOutput (frame : FrameInfo) (output : BufferOutputConfig w) (dataSize : BitVec w) : Bool :=
  if frame.width = 0 ∨ frame.height = 0 then false
  else if frame.pixelFormat ≠ output.pixelFormat then false
  else if frame.x > output.width ∨ frame.y > output.height then false
  else if frame.width > output.width - frame.x ∨ frame.height > output.height - frame.y then false
  else
    let bpp := bytesPerPixel w frame.pixelFormat
    if bpp = 0 then false else dataSize = toSize w frame.width * toSize w frame.height * bpp

def rowCopy (output : BufferOutputConfig w) (frame : FrameInfo) (bpp : BitVec w) (row : ℕ) : Copy w :=
  let rowBytes := toSize w frame.width * bpp
  let dstXOffset := toSize w frame.x * bpp
  { source := BitVec.ofNat w row * rowBytes
    target := (toSize w frame.y + BitVec.ofNat w row) * output.strideBytes + dstXOffset
    size := rowBytes }

/-- The copies with which `present_frame_to_output` presents the frame; `none` is `PresentResult::Error`. -/
def presentFrameToOutput (output : BufferOutputConfig w) (frame : FrameInfo) : Option (List (Copy w)) :=
  if output.buffer.toPtr = false ∨ output.strideBytes = 0 then none
  else
    let bpp := bytesPerPixel w frame.pixelFormat
    if bpp = 0 then none else some ((List.range frame.height.toNat).map (rowCopy output frame bpp))

def Copy.run (data : ℕ → UInt8) (buffer : ℕ → UInt8) (copy : Copy w) (k : ℕ) : UInt8 :=
  if copy.target.toNat ≤ k ∧ k < copy.target.toNat + copy.size.toNat then
    data (copy.source.toNat + (k - copy.target.toNat))
  else buffer k

/-- The pixels of the frame, `bpp` bytes each, stand in the buffer, which is otherwise as before. -/
def Shows (frame : FrameInfo) (bpp stride : ℕ) (data before after : ℕ → UInt8) : Prop :=
  (∀ j < frame.height.toNat, ∀ i < frame.width.toNat, ∀ b < bpp,
    after ((frame.y.toNat + j) * stride + (frame.x.toNat + i) * bpp + b) =
      data ((j * frame.width.toNat + i) * bpp + b)) ∧
  ∀ k, (∀ j < frame.height.toNat, k < (frame.y.toNat + j) * stride + frame.x.toNat * bpp ∨
      (frame.y.toNat + j) * stride + (frame.x.toNat + frame.width.toNat) * bpp ≤ k) →
    after k = before k

/-- Every frame that is valid for the output is read and written in bounds, and shown when it is presented. -/
def Presents (output : BufferOutputConfig w) : Prop :=
  ∀ frame dataSize copies, isFrameValidForOutput frame output dataSize = true →
    presentFrameToOutput output frame = some copies →
    (∀ copy ∈ copies, copy.source.toNat + copy.size.toNat ≤ dataSize.toNat ∧
      copy.target.toNat + copy.size.toNat ≤ output.buffer.dataSize.toNat) ∧
    ∀ data buffer, Shows frame (bytesPerPixel w frame.pixelFormat).toNat output.strideBytes.toNat data buffer
      (copies.foldl (Copy.run data) buffer)

/-- The size of a row is a `size_t`, or comes out as zero and is taken for the stride. -/
def RowFits (config : BufferOutputConfig w) : Prop :=
  config.width.toNat * (bytesPerPixel w config.pixelFormat).toNat < 2 ^ w ∨
    config.strideBytes = 0 ∧ 2 ^ w ∣ config.width.toNat * (bytesPerPixel w config.pixelFormat).toNat

/-! ### Rows -/

variable {config output : BufferOutputConfig w} {frame : FrameInfo}

theorem toNat_toSize (hw : 32 ≤ w) (n : UInt32) : (toSize w n).toNat = n.toNat := by
  unfold toSize
  rw [BitVec.toNat_setWidth, UInt32.toNat_toBitVec]
  exact Nat.mod_eq_of_lt (n.toNat_lt.trans_le (Nat.pow_le_pow_right two_pos hw))

theorem run_rows {size stride start : ℕ} (hsize : size ≤ stride) (n : ℕ)
    (copies : ℕ → Copy w) (hcopies : ∀ row < n, (copies row).source.toNat = row * size ∧
      (copies row).target.toNat = row * stride + start ∧ (copies row).size.toNat = size)
    (data buffer : ℕ → UInt8) :
    (∀ j < n, ∀ i < size, (((List.range n).map copies).foldl (Copy.run data) buffer) (j * stride + start + i) =
      data (j * size + i)) ∧
    ∀ k, (∀ j < n, k < j * stride + start ∨ j * stride + start + size ≤ k) →
      (((List.range n).map copies).foldl (Copy.run data) buffer) k = buffer k := by
  induction n with
  | zero => exact ⟨fun j hj => absurd hj j.not_lt_zero, fun k _ => rfl⟩
  | succ n ih =>
    obtain ⟨hdone, hrest⟩ := ih fun row hrow => hcopies row (hrow.trans n.lt_succ_self)
    obtain ⟨hsource, htarget, hlen⟩ := hcopies n n.lt_succ_self
    rw [range_succ, map_append, foldl_append, map_singleton, foldl_cons, foldl_nil]
    unfold Copy.run
    simp only [hsource, htarget, hlen]
    refine ⟨fun j hj i hi => ?_, fun k hk => ?_⟩
    · rcases Nat.lt_succ_iff_lt_or_eq.mp hj with hlt | rfl
      · have hstep : (j + 1) * stride ≤ n * stride := Nat.mul_le_mul_right stride hlt
        rw [Nat.add_mul, Nat.one_mul] at hstep
        rw [if_neg (by omega)]
        exact hdone j hlt i hi
      · rw [if_pos (by omega), Nat.add_sub_cancel_left]
    · have hlast := hk n n.lt_succ_self
      rw [if_neg (by omega)]
      exact hrest k fun j hj => hk j (hj.trans n.lt_succ_self)

/-! ### Registered outputs and valid frames -/

theorem registerOutput_eq_some {names : List String} (h : registerOutput names config = some output) :
    isBufferOutputValid config (bytesPerPixel w config.pixelFormat) = true ∧
      output = { config with strideBytes := config.stride (bytesPerPixel w config.pixelFormat) } := by
  unfold registerOutput at h
  dsimp only at h
  split_ifs at h with hname hvalid hdup
  exact ⟨Bool.eq_true_of_not_eq_false hvalid, (some.inj h).symm⟩

/-- When a row fits, the stride is a row at least and all rows are in the buffer. -/
theorem rows_le {bpp : BitVec w} (hw : 32 ≤ w) (hvalid : isBufferOutputValid config bpp = true)
    (hfits : config.width.toNat * bpp.toNat < 2 ^ w) :
    config.width.toNat * bpp.toNat ≤ (config.stride bpp).toNat ∧
      (config.height.toNat - 1) * (config.stride bpp).toNat + config.width.toNat * bpp.toNat ≤
        config.buffer.dataSize.toNat := by
  have hrow : (toSize w config.width * bpp).toNat = config.width.toNat * bpp.toNat := by
    rw [BitVec.toNat_mul, toNat_toSize hw, Nat.mod_eq_of_lt hfits]
  unfold isBufferOutputValid at hvalid
  dsimp only at hvalid
  split_ifs at hvalid with hzero hptr hlt hover
  rw [BitVec.lt_def, hrow, Nat.not_lt] at hlt
  have hheight : 1 ≤ config.height := by
    rw [UInt32.le_iff_toNat_le]
    exact Nat.one_le_iff_ne_zero.mpr fun hz => hzero (.inr (.inl (UInt32.toNat_inj.mp hz)))
  have hpred : (toSize w (config.height - 1)).toNat = config.height.toNat - 1 := by
    rw [toNat_toSize hw, UInt32.toNat_sub_of_le _ _ hheight]
    rfl
  have hsum : (config.height.toNat - 1) * (config.stride bpp).toNat + config.width.toNat * bpp.toNat < 2 ^ w := by
    rcases Nat.eq_zero_or_pos (config.height.toNat - 1) with hone | hmore
    · rwa [hone, Nat.zero_mul, Nat.zero_add]
    · have hle := not_and.mp hover (UInt32.lt_iff_toNat_lt.mpr (Nat.lt_of_sub_pos hmore))
      rw [gt_iff_lt, BitVec.lt_def, Nat.not_lt, BitVec.toNat_udiv, BitVec.toNat_sub_of_le ?_, hrow, hpred,
        BitVec.toNat_allOnes, Nat.le_div_iff_mul_le hmore] at hle
      · rw [Nat.mul_comm]
        omega
      · rw [BitVec.le_def, BitVec.toNat_allOnes]
        omega
  have hsize := of_decide_eq_true hvalid
  rw [ge_iff_le, BitVec.le_def, BitVec.toNat_add, BitVec.toNat_mul, hrow, hpred, Nat.mod_add_mod, Nat.mul_comm,
    Nat.mod_eq_of_lt hsum] at hsize
  exact ⟨hlt, hsize⟩

theorem isFrameValidForOutput_eq_true {dataSize : BitVec w} (h : isFrameValidForOutput frame output dataSize = true) :
    frame.pixelFormat = output.pixelFormat ∧ frame.x.toNat + frame.width.toNat ≤ output.width.toNat ∧
      frame.y.toNat + frame.height.toNat ≤ output.height.toNat ∧
      dataSize = toSize w frame.width * toSize w frame.height * bytesPerPixel w frame.pixelFormat := by
  unfold isFrameValidForOutput at h
  dsimp only at h
  split_ifs at h with hzero hfmt hstart hsize hbpp
  obtain ⟨hx, hy⟩ := not_or.mp hstart
  obtain ⟨hwidth, hheight⟩ := not_or.mp hsize
  rw [gt_iff_lt, UInt32.lt_iff_toNat_lt, Nat.not_lt] at hx hy hwidth hheight
  rw [UInt32.toNat_sub_of_le _ _ (UInt32.le_iff_toNat_le.mpr hx)] at hwidth
  rw [UInt32.toNat_sub_of_le _ _ (UInt32.le_iff_toNat_le.mpr hy)] at hheight
  exact ⟨of_not_not hfmt, by omega, by omega, of_decide_eq_true h⟩

theorem presentFrameToOutput_eq_some {copies : List (Copy w)} (h : presentFrameToOutput output frame = some copies) :
    copies = (List.range frame.height.toNat).map (rowCopy output frame (bytesPerPixel w frame.pixelFormat)) := by
  unfold presentFrameToOutput at h
  dsimp only at h
  split_ifs at h with hptr hbpp
  exact (some.inj h).symm

theorem presents {size : ℕ} (hw : 32 ≤ w) (hsize : output.width.toNat * (bytesPerPixel w output.pixelFormat).toNat = size)
    (hrow : size ≤ output.strideBytes.toNat)
    (hrows : (output.height.toNat - 1) * output.strideBytes.toNat + size ≤ output.buffer.dataSize.toNat) :
    Presents output := by
  intro frame dataSize copies hvalid hpresent
  obtain ⟨hfmt, hx, hy, rfl⟩ := isFrameValidForOutput_eq_true hvalid
  rw [← hfmt] at hsize
  have heq := presentFrameToOutput_eq_some hpresent
  generalize bytesPerPixel w frame.pixelFormat = bpp at hsize heq ⊢
  have hmax := output.buffer.dataSize.isLt
  have hcols : frame.x.toNat * bpp.toNat + frame.width.toNat * bpp.toNat ≤ size := by
    rw [← Nat.add_mul, ← hsize]
    exact Nat.mul_le_mul_right _ hx
  have hlast : ∀ row < frame.height.toNat,
      (frame.y.toNat + row) * output.strideBytes.toNat ≤ (output.height.toNat - 1) * output.strideBytes.toNat :=
    fun row hr => Nat.mul_le_mul_right _ (by omega)
  have hlen : (toSize w frame.width * bpp).toNat = frame.width.toNat * bpp.toNat := by
    rw [BitVec.toNat_mul, toNat_toSize hw, Nat.mod_eq_of_lt (by omega)]
  have hdata : frame.height.toNat * (frame.width.toNat * bpp.toNat) ≤ output.buffer.dataSize.toNat := by
    rcases hheight : frame.height.toNat with _ | n
    · rw [Nat.zero_mul]
      exact Nat.zero_le _
    · have hle := hlast n (hheight ▸ n.lt_succ_self)
      have hn : n * (frame.width.toNat * bpp.toNat) ≤ (frame.y.toNat + n) * output.strideBytes.toNat :=
        Nat.mul_le_mul (Nat.le_add_left n _) (by omega)
      rw [Nat.add_mul, Nat.one_mul]
      omega
  have hsum : (toSize w frame.width * toSize w frame.height * bpp).toNat =
      frame.height.toNat * (frame.width.toNat * bpp.toNat) := by
    rw [Nat.mul_left_comm, ← Nat.mul_assoc]
    simp only [BitVec.toNat_mul, toNat_toSize hw, Nat.mod_mul_mod]
    rw [Nat.mod_eq_of_lt]
    rw [Nat.mul_assoc, Nat.mul_left_comm]
    omega
  have hrange : ∀ row < frame.height.toNat, (row + 1) * (frame.width.toNat * bpp.toNat) ≤
      frame.height.toNat * (frame.width.toNat * bpp.toNat) := fun row hr => Nat.mul_le_mul_right _ hr
  have hcopies : ∀ row < frame.height.toNat,
      (rowCopy output frame bpp row).source.toNat = row * (frame.width.toNat * bpp.toNat) ∧
      (rowCopy output frame bpp row).target.toNat = row * output.strideBytes.toNat +
        (frame.y.toNat * output.strideBytes.toNat + frame.x.toNat * bpp.toNat) ∧
      (rowCopy output frame bpp row).size.toNat = frame.width.toNat * bpp.toNat := by
    intro row hr
    have hle := hlast row hr
    have hread := hrange row hr
    have hmod : row % 2 ^ w = row :=
      Nat.mod_eq_of_lt ((hr.trans frame.height.toNat_lt).trans_le (Nat.pow_le_pow_right two_pos hw))
    rw [Nat.add_mul, Nat.one_mul] at hread
    unfold rowCopy
    refine ⟨?_, ?_, hlen⟩
    · rw [BitVec.toNat_mul, hlen, BitVec.toNat_ofNat, hmod, Nat.mod_eq_of_lt (by omega)]
    · simp only [BitVec.toNat_add, BitVec.toNat_mul, BitVec.toNat_ofNat, toNat_toSize hw, Nat.mod_mul_mod,
        Nat.add_mod_mod, Nat.mod_add_mod]
      rw [Nat.mod_eq_of_lt (by omega), Nat.add_comm frame.y.toNat, Nat.add_mul, Nat.add_assoc]
  subst heq
  refine ⟨fun copy hmem => ?_, fun data buffer => ?_⟩
  · obtain ⟨row, hr, rfl⟩ := List.mem_map.mp hmem
    obtain ⟨hsource, htarget, hsize⟩ := hcopies row (mem_range.mp hr)
    have hle := hlast row (mem_range.mp hr)
    have hread := hrange row (mem_range.mp hr)
    rw [Nat.add_mul, Nat.one_mul] at hread
    rw [Nat.add_comm, Nat.add_mul] at hle
    rw [hsource, htarget, hsize, hsum]
    exact ⟨hread, by omega⟩
  · obtain ⟨hshown, hrest⟩ := run_rows (by omega) _ _ hcopies data buffer
    refine ⟨fun j hj i hi b hb => ?_, fun k hk => hrest k fun j hj => ?_⟩
    · have hlt : i * bpp.toNat + b < frame.width.toNat * bpp.toNat :=
        calc i * bpp.toNat + b < (i + 1) * bpp.toNat := by rw [Nat.add_mul]; omega
          _ ≤ frame.width.toNat * bpp.toNat := Nat.mul_le_mul_right _ hi
      have hat := hshown j hj _ hlt
      ring_nf at hat ⊢
      exact hat
    · have hout := hk j hj
      rw [Nat.add_mul, Nat.add_mul] at hout
      omega

/-- A pixel of the first row that starts at the end of the numbers of `size_t`. -/
theorem not_presents (hw : 32 ≤ w) (hvalid : isBufferOutputValid config (bytesPerPixel w config.pixelFormat) = true)
    (hfits : 2 ^ w ≤ config.width.toNat * (bytesPerPixel w config.pixelFormat).toNat) {stride : BitVec w}
    (hstride : stride ≠ 0) : ¬ Presents { config with strideBytes := stride } := by
  intro hpresents
  unfold isBufferOutputValid at hvalid
  dsimp only at hvalid
  split_ifs at hvalid with hzero hptr hlt hover
  generalize hbpp : bytesPerPixel w config.pixelFormat = bpp at hfits hzero
  obtain ⟨hwidth, hheight, hbpp0⟩ : config.width ≠ 0 ∧ config.height ≠ 0 ∧ bpp ≠ 0 := by simpa only [not_or] using hzero
  have hpos : 0 < bpp.toNat := Nat.pos_of_ne_zero fun hz => hbpp0 (BitVec.eq_of_toNat_eq hz)
  have hend : 2 ^ w - 1 < (2 ^ w - 1) / bpp.toNat * bpp.toNat + bpp.toNat := by
    have hlt := Nat.lt_mul_div_succ (2 ^ w - 1) hpos
    rwa [Nat.mul_comm, Nat.add_mul, Nat.one_mul] at hlt
  have hstart := Nat.div_mul_le_self (2 ^ w - 1) bpp.toNat
  have hcol : (2 ^ w - 1) / bpp.toNat < config.width.toNat := by
    by_contra hge
    have hle := Nat.mul_le_mul_right bpp.toNat (Nat.not_lt.mp hge)
    have hpow := Nat.two_pow_pos w
    omega
  have hx : (UInt32.ofNat ((2 ^ w - 1) / bpp.toNat)).toNat = (2 ^ w - 1) / bpp.toNat :=
    UInt32.toNat_ofNat_of_lt' (hcol.trans config.width.toNat_lt)
  generalize UInt32.ofNat ((2 ^ w - 1) / bpp.toNat) = x at hx
  have hlt : x < config.width := UInt32.lt_iff_toNat_lt.mpr (hx ▸ hcol)
  have hone : (1 : UInt32).toNat ≤ config.width.toNat - x.toNat := Nat.sub_pos_of_lt (hx ▸ hcol)
  have hframe : isFrameValidForOutput ⟨x, 0, 1, 1, config.pixelFormat⟩ { config with strideBytes := stride }
      (toSize w 1 * toSize w 1 * bpp) = true := by
    unfold isFrameValidForOutput
    dsimp only
    rw [if_neg (by decide), if_neg (fun hne => hne rfl), if_neg ?_, if_neg ?_, hbpp, if_neg hbpp0, decide_eq_true rfl]
    · rw [gt_iff_lt, UInt32.lt_iff_toNat_lt, UInt32.toNat_sub_of_le _ _ (UInt32.le_of_lt hlt), gt_iff_lt, UInt32.sub_zero,
        UInt32.lt_iff_toNat_lt, not_or, Nat.not_lt, Nat.not_lt]
      exact ⟨hone, Nat.one_le_iff_ne_zero.mpr fun hz => hheight (UInt32.toNat_inj.mp hz)⟩
    · exact not_or.mpr ⟨UInt32.not_lt.mpr (UInt32.le_of_lt hlt), UInt32.not_lt.mpr UInt32.zero_le⟩
  have hpresent : presentFrameToOutput { config with strideBytes := stride } ⟨x, 0, 1, 1, config.pixelFormat⟩ =
      some ((List.range 1).map (rowCopy { config with strideBytes := stride } ⟨x, 0, 1, 1, config.pixelFormat⟩ bpp)) := by
    unfold presentFrameToOutput
    dsimp only
    rw [if_neg (not_or.mpr ⟨hptr, hstride⟩), hbpp, if_neg hbpp0]
    rfl
  have hwrite := ((hpresents _ _ _ hframe hpresent).1 _ (mem_singleton_self _)).2
  have hmax := config.buffer.dataSize.isLt
  unfold rowCopy at hwrite
  simp only [BitVec.toNat_add, BitVec.toNat_mul, toNat_toSize hw, hx, BitVec.toNat_ofNat, Nat.zero_mod, UInt32.toNat_zero,
    UInt32.toNat_one, Nat.zero_mul, Nat.zero_add, Nat.one_mul, Nat.mod_mod] at hwrite
  rw [Nat.mod_eq_of_lt (by omega), Nat.mod_eq_of_lt bpp.isLt] at hwrite
  omega

theorem buffer_outputs_iff (hw : 32 ≤ w) {names : List String} (hreg : registerOutput names config = some output) :
    Presents output ↔ RowFits config := by
  obtain ⟨hvalid, rfl⟩ := registerOutput_eq_some hreg
  refine ⟨fun hpresents => or_iff_not_imp_left.mpr fun hfits => ?_, ?_⟩
  · by_contra hrow
    refine not_presents hw hvalid (Nat.not_lt.mp hfits) (fun hstride => hrow ?_) hpresents
    unfold BufferOutputConfig.stride at hstride
    split_ifs at hstride with hzero
    · have hmod := congrArg BitVec.toNat hstride
      rw [BitVec.toNat_mul, toNat_toSize hw] at hmod
      exact ⟨hzero, Nat.dvd_of_mod_eq_zero hmod⟩
    · exact absurd hstride hzero
  · rintro (hfits | ⟨hzero, hdvd⟩)
    · obtain ⟨hrow, hrows⟩ := rows_le hw hvalid hfits
      exact presents hw rfl hrow hrows
    · have hstride : config.stride (bytesPerPixel w config.pixelFormat) = 0 := by
        unfold BufferOutputConfig.stride
        rw [if_pos hzero]
        apply BitVec.eq_of_toNat_eq
        rw [BitVec.toNat_mul, toNat_toSize hw, Nat.mod_eq_zero_of_dvd hdvd]
        exact BitVec.toNat_zero.symm
      intro frame dataSize copies _ hpresent
      unfold presentFrameToOutput at hpresent
      dsimp only at hpresent
      rw [if_pos (.inr hstride)] at hpresent
      exact absurd hpresent.symm (some_ne_none _)

/-- An output of two rows of half of the numbers below `2 ^ 32`, at two bytes a pixel, in a buffer of sixteen bytes. -/
def wideConfig : BufferOutputConfig 32 where
  name := "wide"
  width := 2147483648
  height := 2
  pixelFormat := .rgb565
  buffer := ⟨true, 16, false⟩
  strideBytes := 8

theorem wideConfig_not_presented : ∃ output, registerOutput [] wideConfig = some output ∧ ¬ Presents output := by
  refine ⟨_, rfl, fun hpresents => ?_⟩
  have hwrite := ((hpresents ⟨8, 0, 1, 1, .rgb565⟩ 2 _ rfl rfl).1 _ (mem_singleton_self _)).2
  exact absurd hwrite (by decide)

theorem buffer_outputs_iff_wide :
    ∃ output, registerOutput [] wideConfig = some output ∧ (Presents output ↔ RowFits wideConfig) :=
  ⟨_, rfl, buffer_outputs_iff (by decide) (rfl : registerOutput [] wideConfig = some _)⟩

end Brookesia.DisplayService.Buffers
