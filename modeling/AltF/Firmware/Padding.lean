/-
  Firmware/Padding.lean --- what `split` writes of a region that reaches past the end of
  the file.

  A short block is filled with zeros and counts as a full one; a block that begins at the
  end of the file is not written at all.  So a component keeps its length as long as it
  ends within the block in which the file ends.
-/
import AltF.Firmware.Split

set_option autoImplicit false

namespace AltF.Firmware

open AltF.Foundation

/-! ## Reading with zeros behind the end -/

/-- The first `n` bytes of a file, with zeros for the bytes it does not have. -/
def padded (fd : Bytes) (n : Nat) : Bytes :=
  fd.take n ++ List.replicate (n - fd.length) 0

theorem padded_length (fd : Bytes) (n : Nat) : (padded fd n).length = n := by
  rw [padded, List.length_append, List.length_take, List.length_replicate]
  omega

theorem padded_getElem? (fd : Bytes) {n i : Nat} (h : i < n) :
    (padded fd n)[i]? = some (fd.getD i 0) := by
  rw [padded]
  by_cases hi : i < fd.length
  · have htake : i < (fd.take n).length := by
      rw [List.length_take]
      omega
    rw [List.getElem?_append_left htake, List.getElem?_take_of_lt h,
      List.getD_eq_getElem?_getD, List.getElem?_eq_getElem hi]
    rfl
  · have htake : (fd.take n).length = fd.length := by
      rw [List.length_take]
      omega
    rw [List.getElem?_append_right (by omega), htake, List.getElem?_replicate, if_pos (by omega),
      List.getD_eq_getElem?_getD, List.getElem?_eq_none (by omega)]
    rfl

/-- A padded read is a padded first block with the padded rest behind it. -/
theorem padded_add (fd : Bytes) (k n : Nat) :
    padded fd (k + n) = padded fd k ++ padded (fd.drop k) n := by
  simp only [padded, List.length_drop]
  by_cases hk : k ≤ fd.length
  · have hblock : k - fd.length = 0 := by omega
    have hrest : k + n - fd.length = n - (fd.length - k) := by omega
    rw [hblock, hrest, List.replicate_zero, List.append_nil, List.take_add, List.append_assoc]
  · have hwhole : ∀ m, k ≤ m → fd.take m = fd := fun m hm => List.take_of_length_le (by omega)
    have hzeros : k + n - fd.length = (k - fd.length) + (n - (fd.length - k)) := by omega
    rw [hwhole k (by omega), hwhole (k + n) (by omega), List.drop_of_length_le (by omega),
      List.take_nil, List.nil_append, hzeros, List.replicate_add, List.append_assoc]

/-! ## The copy loop past the end -/

/-- How many bytes the blocks hold that begin before the end of a file of `n` bytes. -/
def blocksLen (n : Nat) : Nat := (n + blockSize - 1) / blockSize * blockSize

/-- One block less of the length asked for is one block less of the file. -/
theorem min_blocksLen {sz i n : Nat} (hlt : i < sz) (hn : 0 < n) :
    min (sz - i) (blocksLen n) =
      blockLen sz i + min (sz - (i + blockLen sz i)) (blocksLen (n - blockLen sz i)) := by
  by_cases hmore : sz - i > blockSize
  · rw [blockLen, if_pos hmore]
    simp only [blocksLen, blockSize] at hmore ⊢
    omega
  · rw [blockLen, if_neg hmore]
    simp only [blocksLen, blockSize] at hmore ⊢
    omega

/-- The loop writes the padded bytes, up to the end of the block in which the file ends. -/
theorem readwriteLoop_padded (fdi : Bytes) (sz i : Nat) (fdo : Bytes) (lchk : UInt32) :
    (readwriteLoop fdi sz i fdo lchk).1 =
      fdo ++ padded fdi (min (sz - i) (blocksLen fdi.length)) := by
  fun_induction readwriteLoop fdi sz i fdo lchk with
  | case1 fdi i fdo lchk hlt k buf hnil =>
      have hk := blockLen_cases hlt
      have hempty : fdi.length = 0 := by
        simp only [buf, k, List.length_take] at hnil
        omega
      rw [hempty]
      simp [blocksLen, blockSize, padded]
  | case2 fdi i fdo lchk hlt k buf hbuf buf' ih =>
      have hk : 0 < k := (blockLen_cases hlt).1
      have hblock : buf' = padded fdi k := by
        simp only [buf', buf, padded, List.length_take]
        congr 2
        omega
      have hpos : 0 < fdi.length := by
        simp only [buf, List.length_take] at hbuf
        omega
      rw [ih, min_blocksLen hlt hpos, padded_add, List.length_drop, hblock, List.append_assoc]
  | case3 fdi i fdo lchk hge =>
      have hzero : sz - i = 0 := by omega
      rw [hzero, Nat.zero_min]
      simp [padded]

/-- What `readwrite` appends, when it does not object to the checksum. -/
theorem readwrite_padded {fdo fdi out : Bytes} {off sz : Nat} {chk chk' : UInt32}
    (h : readwrite fdo fdi off sz chk = .ok (out, chk')) :
    out = fdo ++ padded (fdi.drop off) (min sz (blocksLen (fdi.length - off))) := by
  have hloop := readwriteLoop_padded (fdi.drop off) sz 0 fdo 0
  rw [List.length_drop, Nat.sub_zero] at hloop
  simp only [readwrite] at h
  rw [← hloop]
  split at h
  · simp only [Except.ok.injEq, Prod.mk.injEq] at h
    exact h.1.symm
  · split at h
    · cases h
    · simp only [Except.ok.injEq, Prod.mk.injEq] at h
      exact h.1.symm

/-! ## Components as the header specifies them -/

/-- The component has the length of its region, and the bytes of the file, with zeros
behind its end. -/
structure Region.Exact (r : Region) (fd out : Bytes) : Prop where
  length : out.length = r.len.toNat
  bytes : ∀ i < r.len.toNat, out[i]? = some (fd.getD (r.off.toNat + i) 0)

/-- The region ends in a block that begins before the end of the file. -/
def Region.Reached (r : Region) (fd : Bytes) : Prop :=
  r.len.toNat ≤ blocksLen (fd.length - r.off.toNat)

instance (r : Region) (fd : Bytes) : Decidable (r.Reached fd) :=
  inferInstanceAs (Decidable (_ ≤ _))

/-- A region inside the file is reached. -/
theorem Region.Inside.reached {r : Region} {fd : Bytes} (h : r.Inside fd) : r.Reached fd := by
  unfold Region.Inside at h
  unfold Region.Reached blocksLen blockSize
  omega

/-- `savefile` writes the component as specified exactly if the region is reached. -/
theorem savefile_exact_iff {fd out : Bytes} {r : Region} (h : savefile fd r = .ok out) :
    r.Exact fd out ↔ r.Reached fd := by
  obtain ⟨⟨out', chk'⟩, hrun, rfl⟩ : ∃ p, readwrite [] fd r.off.toNat r.len.toNat r.checksum =
      .ok p ∧ p.1 = out := by
    unfold savefile at h
    cases hrun : readwrite [] fd r.off.toNat r.len.toNat r.checksum with
    | error e => simp [hrun, Except.map] at h
    | ok p => exact ⟨p, rfl, by simpa [hrun, Except.map] using h⟩
  have hout := readwrite_padded hrun
  rw [List.nil_append] at hout
  constructor
  · intro hexact
    have hlength := hexact.length
    rw [hout, padded_length] at hlength
    unfold Region.Reached
    omega
  · intro hreached
    unfold Region.Reached at hreached
    rw [Nat.min_eq_left hreached] at hout
    refine ⟨by rw [hout, padded_length], fun i hi => ?_⟩
    rw [hout, padded_getElem? _ hi]
    simp only [List.getD_eq_getElem?_getD, List.getElem?_drop]

/-- Every file `split` writes is as its header specifies. -/
structure SavedExactly (fw : Bytes) (myhd : MyControlHeader) (out : SplitFiles) : Prop where
  kernel : myhd.kernel.Exact fw out.kernel
  initramfs : myhd.initramfs.Exact fw out.initramfs
  sqimage : ∀ file, out.sqimage = some file → myhd.sqimage.Exact fw file
  defaults : myhd.defaults.Exact fw out.defaults

/-- Every region `split` saves is reached. -/
structure AllReached (fw : Bytes) (myhd : MyControlHeader) : Prop where
  kernel : myhd.kernel.Reached fw
  initramfs : myhd.initramfs.Reached fw
  sqimage : myhd.type = 128 → myhd.sqimage.Reached fw
  defaults : myhd.defaults.Reached fw

/-- The sqimage file is there exactly with a 128-byte header. -/
theorem splitSqimage_exact_iff {fw : Bytes} {myhd : MyControlHeader} {out : Option Bytes}
    (h : splitSqimage fw myhd = .ok out) :
    (∀ file, out = some file → myhd.sqimage.Exact fw file) ↔
      (myhd.type = 128 → myhd.sqimage.Reached fw) := by
  unfold splitSqimage at h
  by_cases h128 : myhd.type = 128
  · rw [if_pos h128] at h
    cases hfile : savefile fw myhd.sqimage with
    | error e => simp [hfile, Except.map] at h
    | ok file =>
        obtain rfl : some file = out := by simpa [hfile, Except.map] using h
        simp only [Option.some.injEq, forall_eq', h128, true_imp_iff, savefile_exact_iff hfile]
  · rw [if_neg h128] at h
    obtain rfl : none = out := by simpa using h
    simp [h128]

/-- A file that `split` accepts, and what it writes. -/
theorem saveAll_of_split {stack : SplitStack} {fw : Bytes} {myhd : MyControlHeader}
    {out : SplitFiles} (hopen : openRead stack.myhd fw = .ok myhd)
    (h : split stack fw = .ok out) : saveAll fw myhd = .ok out := by
  simp only [split, hopen, sizeOk, Bool.true_eq_false, if_false] at h
  split at h
  · cases h
  · exact h

/-- **Splitting past the end**: the files are those of the header, with zeros for the bytes
the firmware file does not have, exactly if every region ends in a block that begins inside
the file. -/
theorem split_exact_iff {stack : SplitStack} {fw : Bytes} {myhd : MyControlHeader}
    {out : SplitFiles} (hopen : openRead stack.myhd fw = .ok myhd)
    (hsplit : split stack fw = .ok out) : SavedExactly fw myhd out ↔ AllReached fw myhd := by
  have hsave := saveAll_of_split hopen hsplit
  simp only [saveAll, bind_eq_ok_iff, Except.ok.injEq] at hsave
  obtain ⟨k, hk, i, hi, s, hs, d, hd, rfl⟩ := hsave
  constructor
  · rintro ⟨ek, ei, es, ed⟩
    exact ⟨(savefile_exact_iff hk).mp ek, (savefile_exact_iff hi).mp ei,
      (splitSqimage_exact_iff hs).mp es, (savefile_exact_iff hd).mp ed⟩
  · rintro ⟨rk, ri, rs, rd⟩
    exact ⟨(savefile_exact_iff hk).mpr rk, (savefile_exact_iff hi).mpr ri,
      (splitSqimage_exact_iff hs).mpr rs, (savefile_exact_iff hd).mpr rd⟩

/-- A firmware file of 128 bytes: kernel and initramfs are the uboot magic behind the
header, the defaults begin at the end of the file. -/
def shortHeader (defaultsOff defaultsLen : UInt32) : MyControlHeader :=
  { (default : MyControlHeader) with
    type := 64
    kernel := ⟨64, 4, 0⟩
    initramfs := ⟨64, 4, 0⟩
    defaults := ⟨defaultsOff, defaultsLen, 0⟩ }

/-- The file with this header. -/
def shortFile (defaultsOff defaultsLen : UInt32) : Bytes :=
  setHeader64 (shortHeader defaultsOff defaultsLen) ++ ubootSig ++ List.replicate 60 0

/-- Six bytes of defaults, four of which are behind the end. -/
theorem split_exact_short :
    SavedExactly (shortFile 126 6) (shortHeader 126 6)
      ⟨ubootSig, ubootSig, none, List.replicate 6 0⟩ :=
  (split_exact_iff
    (show openRead SplitStack.zero.myhd (shortFile 126 6) = .ok (shortHeader 126 6) by
      decide +kernel) (by decide +kernel)).mpr
    ⟨by decide +kernel, by decide +kernel, by decide +kernel, by decide +kernel⟩

/-- One byte of defaults, at the end of the file: `split` succeeds, and the defaults file is
empty. -/
theorem split_not_exact :
    ∃ myhd out, openRead SplitStack.zero.myhd (shortFile 128 1) = .ok myhd ∧
      split .zero (shortFile 128 1) = .ok out ∧
      myhd.defaults.len = 1 ∧ out.defaults = [] ∧ ¬ SavedExactly (shortFile 128 1) myhd out := by
  refine ⟨shortHeader 128 1, ⟨ubootSig, ubootSig, none, []⟩, by decide +kernel,
    by decide +kernel, rfl, rfl, fun h => ?_⟩
  have hlength := h.defaults.length
  exact absurd hlength (by decide)

end AltF.Firmware
