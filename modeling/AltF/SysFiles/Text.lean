/-
  SysFiles/Text.lean --- the files under /tmp/sys that sysctrl and
  dns320l-daemon exchange: `read_str_from_file`, `write_str_to_file`,
  `read_int_from_file` and `write_int_to_file`, which are the same in both
  programs.

  A file is its text, one character per byte.  `none` is a file that cannot be
  opened.
-/
import AltF.Foundation.Decimal

set_option autoImplicit false

namespace AltF.SysFiles

open AltF.Foundation

/-- The content of a file. -/
abbrev Text : Type := List Char

/-! ## Characters of a text -/

/-- The characters of a literal, without its bytes. -/
theorem toList_literal {s : String} {t : Text} (h : s = String.ofList t) : s.toList = t := by
  rw [h, String.toList_ofList]

/-- A property of the members of a list, by a test of each. -/
theorem forall_of_all {α : Type} {P : α → Prop} [DecidablePred P] {l : List α}
    (h : l.all (fun x => decide (P x)) = true) : ∀ x ∈ l, P x := fun x hx =>
  of_decide_eq_true (List.all_eq_true.mp h x hx)

/-- Where a character occurs only once, or first. -/
theorem eq_of_append_cons {a b s r : Text} {c : Char} (hb : c ∉ b) (ha : c ∉ a ∨ c ∉ r)
    (h : a ++ c :: s = b ++ c :: r) : a = b := by
  rcases List.append_eq_append_iff.mp h with ⟨d, hd, hr⟩ | ⟨d, hd, hr⟩
  · cases d with
    | nil => rw [hd, List.append_nil]
    | cons e d =>
        obtain rfl : c = e := (List.cons.inj hr).1
        exact absurd (by rw [hd]; simp) hb
  · cases d with
    | nil => rw [hd, List.append_nil]
    | cons e d =>
        obtain ⟨rfl, hrest⟩ := List.cons.inj hr
        rcases ha with ha | ha
        · exact absurd (by rw [hd]; simp) ha
        · exact absurd (by rw [hrest]; simp) ha

/-- A name in front of a separator is the beginning of no other name's line. -/
theorem isPrefixOf_append_cons {key n v : Text} {c : Char} (hkey : c ∉ key) (hn : c ∉ n) :
    (key ++ [c]).isPrefixOf (n ++ c :: v) = decide (n = key) := by
  rw [Bool.eq_iff_iff, List.isPrefixOf_iff_prefix, decide_eq_true_iff]
  constructor
  · rintro ⟨u, hu⟩
    rw [List.append_assoc] at hu
    exact (eq_of_append_cons hn (Or.inl hkey) hu).symm
  · rintro rfl
    exact ⟨v, by rw [List.append_assoc]; rfl⟩

/-! ### Up to a character -/

theorem takeWhile_ne_self {t : Text} {c : Char} (ht : c ∉ t) : t.takeWhile (· ≠ c) = t :=
  List.takeWhile_eq_self_iff.mpr fun a ha => decide_eq_true fun (heq : a = c) => ht (heq ▸ ha)

theorem takeWhile_ne_append {t u : Text} {c : Char} (ht : c ∉ t) :
    (t ++ c :: u).takeWhile (· ≠ c) = t := by
  have hne : ∀ a ∈ t, decide (a ≠ c) = true := fun a ha =>
    decide_eq_true fun heq => ht (heq ▸ ha)
  rw [List.takeWhile_append_of_pos hne, List.takeWhile_cons_of_neg (by simp), List.append_nil]

theorem dropWhile_ne_append {t u : Text} {c : Char} (ht : c ∉ t) :
    (t ++ c :: u).dropWhile (· ≠ c) = c :: u := by
  have hne : ∀ a ∈ t, decide (a ≠ c) = true := fun a ha =>
    decide_eq_true fun heq => ht (heq ▸ ha)
  rw [List.dropWhile_append_of_pos hne, List.dropWhile_cons_of_neg (by simp)]

theorem dropWhile_ne_nil {t : Text} {c : Char} (ht : c ∉ t) : t.dropWhile (· ≠ c) = [] :=
  List.dropWhile_eq_nil_iff.mpr fun a ha => decide_eq_true fun (heq : a = c) => ht (heq ▸ ha)

/-! ## Buffers -/

/-- The string in a buffer: what stands in front of the first NUL. -/
def cString (buf : Text) : Text := buf.takeWhile (· ≠ '\x00')

/-- The buffer of `read_str_from_file` after its one `read` of at most `sz` bytes:
the last byte read is replaced by a NUL.  `none` is the return value -1. -/
def strOfRead (got : Text) : Option Text :=
  if got.length < 1 then none else some (cString got.dropLast)

/-- `read_str_from_file`. -/
def readStrFromFile (file : Option Text) (sz : Nat) : Option Text :=
  match file with
  | none => none
  | some text => strOfRead (text.take sz)

/-- What `write_str_to_file` leaves in the file. -/
def writeStrToFile (str : Text) : Text := str ++ ['\n']

/-- `sscanf(buf, "%d", u)`: without a number `*u` keeps its value. -/
def sscanfInt (buf : Text) (u : Int32) : Int32 :=
  match scanInt buf with
  | none => u
  | some v => Int32.ofInt v

/-- The size of the buffer of `read_int_from_file`. -/
def intBuf : Nat := 64

/-- `read_int_from_file`: `*u` after the call, or `none` for the return value -1. -/
def readIntFromFile (file : Option Text) (u : Int32) : Option Int32 :=
  (readStrFromFile file intBuf).map fun buf => sscanfInt buf u

/-- `sprintf(buf, "%d", u)`. -/
def sprintfInt (u : Int32) : Text := printInt u.toInt

/-- `write_int_to_file`. -/
def writeIntToFile (u : Int32) : Text := writeStrToFile (sprintfInt u)

/-! ## Round trips -/

/-- A string without NUL and one more byte, as they stand in the buffer. -/
theorem strOfRead_concat {str : Text} (c : Char) (hnul : '\x00' ∉ str) :
    strOfRead (str ++ [c]) = some str := by
  have hstr : cString str = str := by
    refine List.takeWhile_eq_self_iff.mpr fun c hc => ?_
    simp only [ne_eq, decide_eq_true_eq]
    rintro rfl
    exact hnul hc
  have hlen : ¬ (str ++ [c]).length < 1 := by
    simp only [List.length_append, List.length_cons, List.length_nil]
    omega
  rw [strOfRead, if_neg hlen, List.dropLast_concat, hstr]

/-- A string that fits the buffer and holds no NUL is read back. -/
theorem readStr_writeStr {str : Text} {sz : Nat} (hlen : str.length < sz)
    (hnul : '\x00' ∉ str) : readStrFromFile (some (writeStrToFile str)) sz = some str := by
  have htake : (writeStrToFile str).take sz = writeStrToFile str := by
    refine List.take_of_length_le ?_
    simp only [writeStrToFile, List.length_append, List.length_cons, List.length_nil]
    omega
  rw [readStrFromFile, htake, writeStrToFile, strOfRead_concat _ hnul]

/-- A printed `int` has at most eleven characters. -/
theorem sprintfInt_length_le (u : Int32) : (sprintfInt u).length ≤ 11 := by
  have hlo := u.le_toInt
  have hhi := u.toInt_lt
  refine printInt_length_le (k := 10) (by decide) ?_ ?_
  · omega
  · omega

theorem sprintfInt_no_nul (u : Int32) : '\x00' ∉ sprintfInt u := by
  intro h
  rcases printInt_mem h with hdigit | hsign
  · exact absurd hdigit (by decide)
  · exact absurd hsign (by decide)

theorem sscanfInt_sprintfInt (u old : Int32) : sscanfInt (sprintfInt u) old = u := by
  rw [sscanfInt, sprintfInt, scanInt_printInt]
  exact Int32.ofInt_toInt u

/-- **What one program writes, the other reads**, whatever the variable held. -/
theorem readInt_writeInt (u old : Int32) :
    readIntFromFile (some (writeIntToFile u)) old = some u := by
  have hlen := sprintfInt_length_le u
  rw [readIntFromFile, writeIntToFile,
    readStr_writeStr (by rw [intBuf]; omega) (sprintfInt_no_nul u), Option.map_some,
    sscanfInt_sprintfInt]

end AltF.SysFiles
