import BleGateway.Settings.Memory

/-! # The buffer of a string pool

`ds_string_pool_add` and `ds_string_pool_get` on the memory of a pool: the counters have 16 bits,
`size_t` has 32, a text is copied with its NUL into a buffer that holds anything before, and the
bytes that pad it stay as they are. The streams are modelled over `StringPool`, which only grows;
a buffer implements one (`Implements`), with one spec lemma for an append (`Implements.add`) and
one for a run of them.
-/

namespace BleGateway.Settings

/-- A text in memory. No object is larger than `PTRDIFF_MAX`, which bounds its `strlen`. -/
structure MemText where
  text : CString
  noNul : (0 : UInt8) ∉ text
  length_lt : text.length < 2 ^ 31 - 1
  deriving DecidableEq

/-- `strlen`. -/
def MemText.strlen (str : MemText) : UInt32 := UInt32.ofNat str.text.length

/-- The arguments of an append; `str` is `none` for `NULL`, and `outOff` says that there is a place
for the offset. -/
structure Append where
  str : Option MemText
  outOff : Bool
  deriving DecidableEq

/-- `ds_string_pool_t` with the bytes that `pool` points to, `none` for `NULL`. -/
structure PoolBuffer where
  totalSize : UInt16
  capacity : UInt16
  pool : Option (List UInt8)
  deriving DecidableEq

/-- The room that a text takes: its bytes and the NUL, rounded up to 4. -/
def alignedSize (len : UInt32) : UInt32 := (len + 1 + 3) &&& ~~~3

theorem toNat_and_not_three (x : UInt32) : (x &&& ~~~3).toNat = x.toNat / 4 * 4 := by
  -- clearing two bits is a shift to the right and back
  have hbits : (x &&& ~~~3).toBitVec = x.toBitVec >>> 2 <<< 2 := by
    apply BitVec.eq_of_getLsbD_eq
    intro i hi
    have hmask : ∀ i < 32, (3#32).getLsbD i = decide (i < 2) := by decide
    have hthree : (UInt32.toBitVec 3).getLsbD i = decide (i < 2) := hmask i hi
    simp only [UInt32.toBitVec_and, UInt32.toBitVec_not, BitVec.getLsbD_and, BitVec.getLsbD_not,
      BitVec.getLsbD_shiftLeft, BitVec.getLsbD_ushiftRight, hthree]
    by_cases hlow : i < 2
    · simp [hlow]
    · have hback : 2 + (i - 2) = i := by omega
      simp [hlow, hi, hback]
  have hlt := x.toNat_lt
  calc (x &&& ~~~3).toNat = (x.toBitVec >>> 2 <<< 2).toNat := congrArg BitVec.toNat hbits
    _ = x.toNat / 4 * 4 := by
        rw [BitVec.toNat_shiftLeft, BitVec.toNat_ushiftRight, UInt32.toNat_toBitVec,
          Nat.shiftRight_eq_div_pow, Nat.shiftLeft_eq]
        omega

/-- The sum does not wrap around: no text is long enough. -/
theorem toNat_alignedSize (str : MemText) :
    (alignedSize str.strlen).toNat = (str.text.length + 1 + 3) / 4 * 4 := by
  have hlen := str.length_lt
  have hstrlen : str.strlen.toNat = str.text.length := by
    rw [MemText.strlen, UInt32.toNat_ofNat']
    omega
  have hsum : (str.strlen + 1 + 3).toNat = str.text.length + 1 + 3 := by
    rw [UInt32.toNat_add, UInt32.toNat_add, hstrlen]
    show ((str.text.length + 1) % 2 ^ 32 + 3) % 2 ^ 32 = _
    omega
  rw [alignedSize, toNat_and_not_three, hsum]

namespace PoolBuffer

/-- The pool after `ds_schema_builder_init` or `ds_values_builder_init`, which differ in nothing
here; `memory` is what `ds_settings_alloc` returns, with the bytes that happen to be there. -/
def init (memory : Option (Vector UInt8 DEVICE_SETTINGS_MAX_STRING_POOL)) : PoolBuffer :=
  match memory with
  | none => ⟨0, 0, none⟩
  | some bytes => ⟨4, UInt16.ofNat DEVICE_SETTINGS_MAX_STRING_POOL, some (bytes.toList.set 0 0)⟩

/-- `ds_string_pool_get`: the text that its result points to. -/
def get (p : PoolBuffer) (off : UInt16) : CString :=
  match p.pool with
  | none => []
  | some bytes => if off ≥ p.totalSize then [] else TextPool.textAt 0 bytes off.toNat

/-- `ds_string_pool_add`: the pool, and the offset or the error. -/
def add (p : PoolBuffer) (a : Append) : PoolBuffer × Except EspErr UInt16 :=
  match a.str, a.outOff with
  | some str, true =>
      let aligned := alignedSize str.strlen
      if p.totalSize.toUInt32 + aligned > p.capacity.toUInt32 then (p, .error .noMem)
      else
        ({ p with
            pool := p.pool.map (TextPool.overwrite · p.totalSize.toNat (str.text ++ [0]))
            totalSize := p.totalSize + aligned.toUInt16 }, .ok p.totalSize)
  | _, _ => (p, .error .invalidArg)

/-- The pool after a sequence of appends. -/
def appendAll (p : PoolBuffer) (calls : List Append) : PoolBuffer :=
  calls.foldl (fun p a => (p.add a).1) p

/-- The pool of a builder on which the appends were called. -/
def built (memory : Option (Vector UInt8 DEVICE_SETTINGS_MAX_STRING_POOL)) (before : List Append) :
    PoolBuffer :=
  (init memory).appendAll before

theorem appendAll_cons (p : PoolBuffer) (a : Append) (calls : List Append) :
    p.appendAll (a :: calls) = (p.add a).1.appendAll calls := rfl

/-- The text stands at the offset of the buffer. -/
def Reads (p : PoolBuffer) (off : Nat) (s : CString) : Prop :=
  TextPool.Reads 0 (p.pool.getD []) off s

theorem Reads.get {p : PoolBuffer} {off : UInt16} {s : CString} (h : p.Reads off.toNat s)
    (hoff : off.toNat < p.totalSize.toNat) : p.get off = s := by
  have hlt : ¬off ≥ p.totalSize := by
    rw [ge_iff_le, UInt16.le_iff_toNat_le]
    omega
  obtain ⟨totalSize, capacity, pool⟩ := p
  cases pool with
  | none => exact absurd (TextPool.Reads.lt h) (Nat.not_lt_zero _)
  | some bytes =>
      show (if off ≥ totalSize then [] else TextPool.textAt 0 bytes off.toNat) = s
      rw [if_neg hlt]
      exact TextPool.Reads.textAt h

end PoolBuffer

namespace StringPool

/-- The same append on a growing pool. -/
def append (q : StringPool) (a : Append) : Option (StringPool × Nat) :=
  match a.str, a.outOff with
  | some str, true => q.add str.text
  | _, _ => none

def appendAll (q : StringPool) (calls : List Append) : StringPool :=
  calls.foldl (fun q a => ((q.append a).map Prod.fst).getD q) q

theorem appendAll_cons (q : StringPool) (a : Append) (calls : List Append) :
    q.appendAll (a :: calls) = (((q.append a).map Prod.fst).getD q).appendAll calls := rfl

/-- What an append that has room does to the sizes. -/
theorem add_sizes {q q' : StringPool} {s : CString} {off : Nat}
    (h : q.add s = some (q', off)) :
    off = q.totalSize ∧ q'.totalSize = q.totalSize + (s.length + 1 + 3) / 4 * 4 ∧
      q'.capacity = q.capacity ∧ q'.totalSize ≤ q.capacity := by
  rw [StringPool.add] at h
  split at h
  · exact absurd h (by simp)
  next hroom =>
    cases h
    have hsize : StringPool.totalSize { q with bytes := q.bytes ++ (s ++
        List.replicate ((s.length + 1 + 3) / 4 * 4 - s.length) 0) } =
        q.totalSize + (s.length + 1 + 3) / 4 * 4 := by
      simp only [StringPool.totalSize, List.length_append, List.length_replicate]
      omega
    refine ⟨rfl, hsize, rfl, ?_⟩
    rw [hsize]
    omega

end StringPool

/-- The buffer `p` does what the growing pool `q` does: the used parts have one size, and each of
the texts that were `placed` stands at its offset in both. -/
structure Implements (p : PoolBuffer) (q : StringPool) (placed : List (Nat × CString)) : Prop where
  allocated : (p.pool.getD []).length = p.capacity.toNat
  totalSize : p.totalSize.toNat = q.totalSize
  capacity : p.capacity.toNat = q.capacity
  within : q.totalSize ≤ q.capacity
  aligned : q.totalSize % 4 = 0
  reads : ∀ c ∈ placed, p.Reads c.1 c.2 ∧ q.Reads c.1 c.2
  used : ∀ c ∈ placed, c.1 + c.2.length < q.totalSize

namespace Implements

variable {p : PoolBuffer} {q : StringPool} {placed : List (Nat × CString)}

theorem init (bytes : Vector UInt8 DEVICE_SETTINGS_MAX_STRING_POOL) :
    Implements (.init (some bytes)) .fresh [(0, [])] where
  allocated := by
    show (bytes.toList.set 0 0).length = DEVICE_SETTINGS_MAX_STRING_POOL
    rw [List.length_set, Vector.length_toList]
  totalSize := rfl
  capacity := rfl
  within := by decide
  aligned := rfl
  reads := by
    intro c hc
    rw [List.mem_singleton.mp hc]
    refine ⟨⟨by simp, [], (bytes.toList.set 0 0).tail, ?_, rfl⟩, StringPool.reads_fresh⟩
    have hlen : bytes.toList.length = 512 := bytes.length_toList
    show bytes.toList.set 0 0 = 0 :: (bytes.toList.set 0 0).tail
    cases hlist : bytes.toList with
    | nil => simp [hlist] at hlen
    | cons b rest => rfl
  used := by
    intro c hc
    rw [List.mem_singleton.mp hc]
    decide

/-- A builder without memory has no room for anything. -/
theorem init_none : Implements (.init none) ⟨[], 0⟩ [] where
  allocated := rfl
  totalSize := rfl
  capacity := rfl
  within := Nat.le_refl 0
  aligned := rfl
  reads := by simp
  used := by simp

/-- The check of the code compares the sizes without overflow. -/
theorem room_iff (h : Implements p q placed) (str : MemText) :
    p.totalSize.toUInt32 + alignedSize str.strlen > p.capacity.toUInt32 ↔
      q.totalSize + (str.text.length + 1 + 3) / 4 * 4 > q.capacity := by
  have hlen := str.length_lt
  have htotal := p.totalSize.toNat_lt
  have hsum : (p.totalSize.toUInt32 + alignedSize str.strlen).toNat =
      q.totalSize + (str.text.length + 1 + 3) / 4 * 4 := by
    rw [UInt32.toNat_add, toNat_alignedSize, UInt16.toNat_toUInt32, ← h.totalSize]
    omega
  rw [gt_iff_lt, UInt32.lt_iff_toNat_lt, hsum, UInt16.toNat_toUInt32, h.capacity]

/-- A text that is copied behind the used part joins the placed ones. -/
theorem place (h : Implements p q placed) (str : MemText) {q' : StringPool} {off : Nat}
    (hadd : q.add str.text = some (q', off)) :
    Implements
      { p with
        pool := p.pool.map (TextPool.overwrite · p.totalSize.toNat (str.text ++ [0]))
        totalSize := p.totalSize + (alignedSize str.strlen).toUInt16 }
      q' ((off, str.text) :: placed) := by
  obtain ⟨hextends, hplaced⟩ := StringPool.add_spec str.noNul hadd
  obtain ⟨hoff, hsize, hcap, hroom⟩ := StringPool.add_sizes hadd
  have haligned := h.aligned
  have hallocated := h.allocated
  have htotal := h.totalSize
  have hcapacity := h.capacity
  have hlt := p.capacity.toNat_lt
  have hpool : ((p.pool.map (TextPool.overwrite · p.totalSize.toNat (str.text ++ [0]))).getD []) =
      TextPool.overwrite (p.pool.getD []) p.totalSize.toNat (str.text ++ [0]) := by
    cases hp : p.pool with
    | some bytes => rfl
    | none =>
        -- without memory there is no room
        rw [hp] at hallocated
        have hzero : p.capacity.toNat = 0 := hallocated.symm
        omega
  refine ⟨?_, ?_, hcapacity.trans hcap.symm, ?_, ?_, ?_, ?_⟩
  · have hfit : p.totalSize.toNat + (str.text ++ [0]).length ≤ (p.pool.getD []).length := by
      rw [List.length_append, List.length_singleton, hallocated]
      omega
    rw [hpool, TextPool.length_overwrite hfit, hallocated]
  · show (p.totalSize + (alignedSize str.strlen).toUInt16).toNat = q'.totalSize
    rw [UInt16.toNat_add, UInt32.toNat_toUInt16, toNat_alignedSize, htotal, hsize]
    omega
  · omega
  · omega
  · intro c hc
    rw [PoolBuffer.Reads, hpool]
    rcases List.mem_cons.mp hc with rfl | hold
    · refine ⟨?_, hplaced⟩
      show TextPool.Reads 0 _ off str.text
      rw [hoff, ← htotal]
      exact TextPool.reads_overwrite str.noNul (by omega)
    · have hused := h.used c hold
      obtain ⟨hreads, hreads'⟩ := h.reads c hold
      exact ⟨TextPool.Reads.overwrite hreads (by omega) _, hreads'.extends hextends⟩
  · intro c hc
    rcases List.mem_cons.mp hc with rfl | hold
    · show off + str.text.length < q'.totalSize
      omega
    · have hused := h.used c hold
      omega

/-- **One append.** It fails and leaves the pool, or it places the text behind all others; the
growing pool answers the same. -/
theorem add (h : Implements p q placed) (a : Append) :
    (∃ e, p.add a = (p, .error e) ∧ q.append a = none) ∨
      ∃ str p' q' off, a.str = some str ∧ p.add a = (p', .ok off) ∧
        q.append a = some (q', off.toNat) ∧ off.toNat = q.totalSize ∧
        off.toNat + str.text.length < p.capacity.toNat ∧ p'.capacity = p.capacity ∧
        Implements p' q' ((off.toNat, str.text) :: placed) := by
  obtain ⟨str, outOff⟩ := a
  cases str with
  | none => exact .inl ⟨.invalidArg, rfl, rfl⟩
  | some str =>
      cases outOff with
      | false => exact .inl ⟨.invalidArg, rfl, rfl⟩
      | true =>
          have hiff := h.room_iff str
          by_cases hfull : q.totalSize + (str.text.length + 1 + 3) / 4 * 4 > q.capacity
          · exact .inl ⟨.noMem, if_pos (hiff.mpr hfull), if_pos hfull⟩
          · obtain ⟨q', hadd⟩ : ∃ q', q.add str.text = some (q', p.totalSize.toNat) := by
              rw [h.totalSize]
              exact ⟨_, if_neg hfull⟩
            refine .inr ⟨str, _, q', p.totalSize, rfl, if_neg (fun hgt => hfull (hiff.mp hgt)),
              hadd, h.totalSize, ?_, rfl, h.place str hadd⟩
            rw [h.totalSize, h.capacity]
            omega

/-- **A run of appends** takes the buffer and the growing pool along; every placed text stays. -/
theorem appendAll (h : Implements p q placed) (calls : List Append) :
    ∃ placed', Implements (p.appendAll calls) (q.appendAll calls) placed' ∧
      ∀ c ∈ placed, c ∈ placed' := by
  induction calls generalizing p q placed with
  | nil => exact ⟨placed, h, fun _ hc => hc⟩
  | cons a calls ih =>
      rw [PoolBuffer.appendAll_cons, StringPool.appendAll_cons]
      rcases h.add a with ⟨e, hadd, happend⟩ | ⟨str, p', q', off, -, hadd, happend, -, -, -, hnext⟩
      · rw [hadd, happend]
        exact ih h
      · rw [hadd, happend]
        obtain ⟨placed', hlast, hkept⟩ := ih hnext
        exact ⟨placed', hlast, fun c hc => hkept c (List.mem_cons_of_mem _ hc)⟩

/-- Whatever memory its builder got, a pool implements a growing one. -/
theorem exists_init (memory : Option (Vector UInt8 DEVICE_SETTINGS_MAX_STRING_POOL)) :
    ∃ q placed, Implements (.init memory) q placed := by
  cases memory with
  | none => exact ⟨_, _, init_none⟩
  | some bytes => exact ⟨_, _, init bytes⟩

end Implements

/-! ## Appends on one builder -/

/-- **The streams' pools are those of the code**: after any appends an append has the result and
the offset that it has on the growing pool. -/
theorem append_results (bytes : Vector UInt8 DEVICE_SETTINGS_MAX_STRING_POOL)
    (calls : List Append) (a : Append) :
    ((PoolBuffer.built (some bytes) calls).add a).2.toOption.map UInt16.toNat =
      ((StringPool.fresh.appendAll calls).append a).map Prod.snd := by
  obtain ⟨placed, h, -⟩ := (Implements.init bytes).appendAll calls
  rw [PoolBuffer.built]
  rcases h.add a with ⟨e, hadd, happend⟩ | ⟨str, p', q', off, -, hadd, happend, -⟩
  · rw [hadd, happend]
    rfl
  · rw [hadd, happend]
    rfl

/-- **The append law.** Whatever was appended before, an append that fails leaves the pool, and one
that succeeds returns an aligned offset with room for the text and its NUL behind it, at which the
text is read after any later appends, and at once if there are none. -/
theorem append_law (memory : Option (Vector UInt8 DEVICE_SETTINGS_MAX_STRING_POOL))
    (before : List Append) (a : Append) :
    (∀ p' e, (PoolBuffer.built memory before).add a = (p', .error e) →
        p' = PoolBuffer.built memory before) ∧
      ∀ p' off, (PoolBuffer.built memory before).add a = (p', .ok off) →
        ∃ str, a.str = some str ∧ off.toNat % 4 = 0 ∧
          off.toNat + str.text.length < (PoolBuffer.built memory before).capacity.toNat ∧
          ∀ later, (p'.appendAll later).get off = str.text := by
  obtain ⟨q, placed, hinit⟩ := Implements.exists_init memory
  obtain ⟨placed', h, -⟩ := hinit.appendAll before
  rw [PoolBuffer.built]
  rcases h.add a with ⟨e, hadd, -⟩ | ⟨str, p₁, q₁, off, hstr, hadd, -, hoff, hroom, -, hnext⟩
  · rw [hadd]
    refine ⟨?_, ?_⟩
    · intro p' e' heq
      exact (Prod.mk.inj heq).1.symm
    · intro p' off heq
      exact absurd (Prod.mk.inj heq).2 (by simp)
  · rw [hadd]
    refine ⟨?_, ?_⟩
    · intro p' e' heq
      exact absurd (Prod.mk.inj heq).2 (by simp)
    · intro p' off' heq
      obtain ⟨rfl, hok⟩ := Prod.mk.inj heq
      cases hok
      have haligned : off.toNat % 4 = 0 := by
        rw [hoff]
        exact h.aligned
      refine ⟨str, hstr, haligned, hroom, ?_⟩
      intro later
      -- the text is among the placed ones, and a run keeps them
      obtain ⟨last, hlast, hkept⟩ := hnext.appendAll later
      have hmem := hkept _ List.mem_cons_self
      have hused := hlast.used _ hmem
      have hlt : off.toNat < ((p₁.appendAll later).totalSize).toNat := by
        rw [hlast.totalSize]
        exact Nat.lt_of_le_of_lt (Nat.le_add_right _ _) hused
      exact (hlast.reads _ hmem).1.get hlt

def hello : MemText := ⟨cstr "hello", by decide, by decide⟩

def world : MemText := ⟨cstr "world", by decide, by decide⟩

/-- In memory that held something else, `hello` stays at its offset when `world` follows it. -/
theorem append_law_hello :
    ((PoolBuffer.built (some (Vector.replicate 512 0xA5)) []).add ⟨some hello, true⟩).2 = .ok 4 ∧
      (((PoolBuffer.built (some (Vector.replicate 512 0xA5)) []).add
        ⟨some hello, true⟩).1.appendAll [⟨some world, true⟩]).get 4 = cstr "hello" := by
  have hok : ((PoolBuffer.built (some (Vector.replicate 512 0xA5)) []).add
      ⟨some hello, true⟩).2 = .ok 4 := by decide
  obtain ⟨str, hstr, -, -, hreads⟩ := (append_law (some (Vector.replicate 512 0xA5)) []
    ⟨some hello, true⟩).2 _ 4 (Prod.ext rfl hok)
  cases hstr
  exact ⟨hok, hreads [⟨some world, true⟩]⟩

end BleGateway.Settings
