/-
  Cgi/KeptPartitions.lean --- the table that diskpart_proc.cgi gives to sfdisk for a disk with an
  MBR: the lines of the partitions that are kept, taken from the listing of sfdisk, and the lines
  of the others.

  awk is asked for the lines that hold the name of a partition, and the name of the first one is
  the beginning of that of the tenth.
-/
import AltF.Foundation.Decimal
import AltF.Cgi.DiskPart

set_option autoImplicit false

namespace AltF.Cgi.KeptPartitions

open AltF.Foundation AltF.Shell AltF.SysFiles

/-! ## The partition table -/

def printNat (n : Nat) : Text := printInt n

/-- `%x` -/
def hex (n : Nat) : Text := Nat.toDigits 16 n

structure Entry where
  start : Nat
  sects : Nat
  id : Fin 256
  boot : Bool
  deriving DecidableEq, Repr

/-- The line from which sfdisk makes it. -/
def Entry.line (e : Entry) : Text :=
  printNat e.start ++ ",".toList ++ printNat e.sects ++ ",".toList ++ hex e.id ++
    if e.boot then ",*".toList else []

/-- The four partitions of the MBR, and those inside of an extended one, from 5 on. -/
structure Table where
  primary : Fin 4 → Entry
  logical : List Entry

def Table.entries (t : Table) : List Entry := List.ofFn t.primary ++ t.logical

/-! ## The listing -/

/-- `/t/` of awk, for a text of letters and digits -/
def contains (t l : Text) : Bool := l.tails.any t.isPrefixOf

/-- `%.0f` of a field -/
def number (fields : List Text) (i : Nat) : Text :=
  printInt ((scanInt (fields.getD i [])).getD 0)

/-- What awk prints for a line. -/
def awkLine (l : Text) : Text :=
  "start=".toList ++ number (words l) 1 ++ "; sects=".toList ++ number (words l) 3 ++
    "; id=".toList ++ (words l).getD 4 []

/-- `awk '/'$ppart'/{printf "start=%.0f; sects=%.0f; id=%s", $2, $4, $5}'` -/
def awkRow (ppart fout : Text) : Text :=
  ((fout.splitOn '\n').filter (contains ppart)).flatMap awkLine

/-- `fout`, after the test. -/
def listed (dsk fout : Text) : Text :=
  if contains "No partitions found".toList (join (words fout)) then
    Disks.emptyTable dsk
  else fout

/-! ## What is submitted -/

/-- The types of the page. -/
inductive PartType where
  | empty
  | raid
  | swap
  | linux
  | lvm
  | vfat
  | ntfs
  | extended
  | gpt
  | windowsData
  deriving DecidableEq, Repr

def PartType.name : PartType → Text
  | empty => "empty".toList
  | raid => "RAID".toList
  | swap => "swap".toList
  | linux => "linux".toList
  | lvm => "LVM".toList
  | vfat => "vfat".toList
  | ntfs => "ntfs".toList
  | extended => "extended".toList
  | gpt => "GPT".toList
  | windowsData => "Windows Data".toList

/-- The fields of a partition; those that are disabled are not sent. -/
structure Choice where
  keep : Bool
  start : Text
  len : Text
  type : Option PartType
  digits : ∀ c ∈ start ++ len, c.isDigit = true

def Choice.typeName (c : Choice) : Text := (c.type.map PartType.name).getD []

/-! ## The loop -/

/-- The name of a partition behind that of the disk. -/
def pl (i : Fin 4) : Text := printNat (i.val + 1)

/-- One turn of the loop, with the variables that the turn before has left. -/
def mbrRow (dsk fout : Text) (c : Fin 4 → Choice) (old : Disks.Row) (i : Fin 4) : Disks.Row :=
  if (c i).keep then
    let out := awkRow (dsk ++ pl i) fout
    ⟨Disks.assigned "start".toList out old.start, Disks.assigned "sects".toList out old.sects,
      Disks.assigned "id".toList out old.id⟩
  else ⟨(c i).start, (c i).len, Disks.mbrId (c i).typeName old.id⟩

/-- The loop. -/
def mbrRows (dsk fout : Text) (c : Fin 4 → Choice) : Disks.Row → List (Fin 4) → List Disks.Row
  | _, [] => []
  | old, i :: is =>
      let row := mbrRow dsk fout c old i
      row :: mbrRows dsk fout c row is

/-- The input of sfdisk: `fout` is what it has listed. -/
def fmtLines (dsk fout : Text) (c : Fin 4 → Choice) (row : Disks.Row) : List Text :=
  (mbrRows dsk (listed dsk fout) c row (List.finRange 4)).map Disks.Row.line

/-! ## What it should be -/

/-- The number of a type that can be chosen. -/
def PartType.id : PartType → Option (Fin 256)
  | empty => some 0
  | swap => some 0x82
  | linux => some 0x83
  | lvm => some 0x8e
  | vfat => some 0xc
  | ntfs => some 7
  | raid => some 0xda
  | extended | gpt | windowsData => none

/-- Missing, or zero. -/
def Zero (t : Text) : Prop := ∀ c ∈ t, c = '0'

/-- The line of a partition that is not kept. -/
def Choice.LineOf (c : Choice) (l : Text) : Prop :=
  (Zero c.start ∨ Zero c.len → l = "0,0,0".toList) ∧
    (¬ (Zero c.start ∨ Zero c.len) → ∃ id, c.type.bind PartType.id = some id ∧
      l = c.start ++ ",".toList ++ c.len ++ ",".toList ++ hex id)

/-- The table that sfdisk is given: a partition that is kept stays as it is, another is as it was
entered. -/
def Respects (t : Table) (c : Fin 4 → Choice) (lines : List Text) : Prop :=
  ∀ i : Fin 4, ∃ l, lines[i.val]? = some l ∧
    if (c i).keep then l = (t.primary i).line else (c i).LineOf l

/-! ### What sfdisk lists -/

/-- The line shows the partition of this number, and holds its name alone. -/
structure Shows (dsk : Text) (n : Nat) (e : Entry) (l : Text) : Prop where
  fields : ∃ dev stop system,
    words l = dev :: printNat e.start :: stop :: printNat e.sects :: hex e.id :: system
  named : ∀ i, contains (dsk ++ pl i) l = (pl i).isPrefixOf (printNat n)

/-- The lines show the partitions, from this number on; other lines name none. -/
inductive Lists (dsk : Text) : Nat → List Entry → List Text → Prop where
  | nil (n : Nat) : Lists dsk n [] []
  | other {n : Nat} {es : List Entry} {l : Text} {ls : List Text}
      (hl : ∀ i, contains (dsk ++ pl i) l = false) (h : Lists dsk n es ls) :
      Lists dsk n es (l :: ls)
  | entry {n : Nat} {e : Entry} {es : List Entry} {l : Text} {ls : List Text}
      (hl : Shows dsk n e l) (h : Lists dsk (n + 1) es ls) : Lists dsk n (e :: es) (l :: ls)

/-! ## What awk prints -/

/-- What awk prints for a partition. -/
def Entry.assignments (e : Entry) : Text :=
  "start=".toList ++ printNat e.start ++ "; sects=".toList ++ printNat e.sects ++
    "; id=".toList ++ hex e.id

/-- The partitions with this number in front of theirs. -/
def matching (p : Text) : Nat → List Entry → List Entry
  | _, [] => []
  | n, e :: es =>
      if p.isPrefixOf (printNat n) then e :: matching p (n + 1) es else matching p (n + 1) es

theorem awkLine_of_shows {dsk : Text} {n : Nat} {e : Entry} {l : Text} (h : Shows dsk n e l) :
    awkLine l = e.assignments := by
  obtain ⟨dev, stop, system, hwords⟩ := h.fields
  have hnumber : ∀ n : Nat, printInt ((scanInt (printNat n)).getD 0) = printNat n := by
    intro n
    rw [printNat, scanInt_printInt, Option.getD_some]
  unfold awkLine Entry.assignments number
  rw [hwords]
  simp only [List.getD_cons_succ, List.getD_cons_zero, hnumber]

theorem awkRow_of_lists {dsk : Text} {n : Nat} {es : List Entry} {ls : List Text} (i : Fin 4)
    (h : Lists dsk n es ls) : (ls.filter (contains (dsk ++ pl i))).flatMap awkLine =
      (matching (pl i) n es).flatMap Entry.assignments := by
  induction h with
  | nil n => rfl
  | other hl h ih =>
      rw [List.filter_cons_of_neg (by rw [hl i]; exact Bool.false_ne_true)]
      exact ih
  | entry hl h ih =>
      rw [matching, ← hl.named i]
      split
      · next hmatch =>
          rw [List.filter_cons_of_pos hmatch, List.flatMap_cons, List.flatMap_cons, ih,
            awkLine_of_shows hl]
      · next hmatch =>
          rw [List.filter_cons_of_neg hmatch]
          exact ih

/-- The partitions of a table that match: one of the first four, and those inside of the extended
one that are found beside it. -/
theorem matching_entries (t : Table) (i : Fin 4) :
    matching (pl i) 1 t.entries = t.primary i :: matching (pl i) 5 t.logical := by
  have hentries : t.entries =
      t.primary 0 :: t.primary 1 :: t.primary 2 :: t.primary 3 :: t.logical := rfl
  rw [hentries]
  match i with
  | 0 => rfl
  | 1 => rfl
  | 2 => rfl
  | 3 => rfl

/-! ## What is assigned -/

theorem words_blank_cons (t : Text) : words (' ' :: t) = words t := by
  have h := words_append_cons [] t (c := ' ') rfl
  rwa [List.nil_append, words_nil, List.nil_append] at h

/-- The words of the pieces between semicolons. -/
def pieceWords (t : Text) : List Text := (t.splitOnP (· == ';')).flatMap words

theorem pieceWords_blank (t : Text) : pieceWords (' ' :: t) = pieceWords t := by
  rw [pieceWords, pieceWords, List.splitOnP_cons_eq_if_modifyHead, if_neg (by decide)]
  cases hpieces : t.splitOnP (· == ';') with
  | nil => exact absurd hpieces (List.splitOnP_ne_nil _ _)
  | cons u us =>
      rw [List.modifyHead_cons, List.flatMap_cons, List.flatMap_cons, words_blank_cons]

/-- A character that separates nothing. -/
def isPlain (c : Char) : Bool := !isBlank c && c != ';' && c != ','

theorem isPlain_of_isDigit {c : Char} (h : c.isDigit = true) : isPlain c = true := by
  have hne := Foundation.ne_of_isDigit h
  simp [isPlain, isBlank, hne ' ' rfl, hne '\t' rfl, hne '\n' rfl, hne ';' rfl, hne ',' rfl]

theorem printNat_plain (n : Nat) : (printNat n).all isPlain = true :=
  List.all_eq_true.mpr fun c hc =>
    isPlain_of_isDigit (Nat.isDigit_of_mem_toDigits (b := 10) (n := n) (by decide) (by decide) hc)

theorem printNat_ne_nil (n : Nat) : printNat n ≠ [] := Nat.toDigits_ne_nil

theorem hex_plain : ∀ i : Fin 256, (hex i).all isPlain = true := by
  decide +kernel

theorem pieceWords_plain {w : Text} (hne : w ≠ []) (hw : w.all isPlain = true) :
    pieceWords w = [w] := by
  rw [List.all_eq_true] at hw
  have hsemi : ∀ c ∈ w, (c == ';') = false := fun c hc => by
    have h := hw c hc
    simp only [isPlain, Bool.and_eq_true, bne_iff_ne] at h
    exact beq_eq_false_iff_ne.mpr h.1.2
  have hblank : ∀ c ∈ w, isBlank c = false := fun c hc => by
    have h := hw c hc
    simp only [isPlain, Bool.and_eq_true, Bool.not_eq_true'] at h
    exact h.1.1
  rw [pieceWords, List.splitOnP_eq_singleton hsemi, List.flatMap_singleton,
    words_eq_singleton hne hblank]

theorem pieceWords_append {w : Text} (hne : w ≠ []) (hw : w.all isPlain = true) (t : Text) :
    pieceWords (w ++ ';' :: t) = w :: pieceWords t := by
  have hword := pieceWords_plain hne hw
  rw [pieceWords] at hword
  rw [pieceWords, List.splitOnP_append_cons _ _ rfl, List.flatMap_append, hword]
  rfl

/-- The words that are assigned, for partitions in a row: the name of the second `start` is joined
to the first `id`. -/
theorem pieceWords_assignments {u : Text} (hu : u.all isPlain = true) (e : Entry)
    (es : List Entry) :
    pieceWords (u ++ (e :: es).flatMap Entry.assignments) =
      (u ++ ("start=".toList ++ printNat e.start)) :: ("sects=".toList ++ printNat e.sects) ::
        pieceWords ("id=".toList ++ hex e.id ++ es.flatMap Entry.assignments) := by
  have hstart : (u ++ ("start=".toList ++ printNat e.start)).all isPlain = true := by
    rw [List.all_append, List.all_append, hu, printNat_plain]
    rfl
  have hsects : ("sects=".toList ++ printNat e.sects).all isPlain = true := by
    rw [List.all_append, printNat_plain]
    rfl
  have htext : u ++ (e :: es).flatMap Entry.assignments =
      (u ++ ("start=".toList ++ printNat e.start)) ++ ';' :: ' ' ::
        (("sects=".toList ++ printNat e.sects) ++ ';' :: ' ' ::
          ("id=".toList ++ hex e.id ++ es.flatMap Entry.assignments)) := by
    have hfirst : "; sects=".toList = ';' :: ' ' :: "sects=".toList := by decide
    have hsecond : "; id=".toList = ';' :: ' ' :: "id=".toList := by decide
    rw [List.flatMap_cons]
    unfold Entry.assignments
    simp only [hfirst, hsecond, List.append_assoc, List.cons_append]
  rw [htext, pieceWords_append (List.append_ne_nil_of_right_ne_nil _ (by simp)) hstart,
    pieceWords_blank, pieceWords_append (by simp) hsects, pieceWords_blank]

/-- One word in the assignment of a variable. -/
def assign (n : Text) (old w : Text) : Text :=
  if n ++ ['='] <+: w then w.drop (n.length + 1) else old

theorem assigned_eq (n out old : Text) :
    Disks.assigned n out old = (pieceWords out).foldl (assign n) old := rfl

theorem assign_same (n old v : Text) : assign n old (n ++ '=' :: v) = v := by
  have htext : n ++ '=' :: v = (n ++ ['=']) ++ v := by simp
  have hlen : n.length + 1 = (n ++ ['=']).length := by simp
  rw [assign, htext, if_pos (List.prefix_append _ _), hlen, List.drop_left]

theorem assign_other {n w : Text} (old : Text) (h : ¬ n ++ ['='] <+: w) : assign n old w = old :=
  if_neg h

/-- The last partition that matches. -/
def last (e : Entry) (es : List Entry) : Entry := es.foldl (fun _ e => e) e

/-- The words from the `id` of a partition on. -/
def wordsFrom (e : Entry) (es : List Entry) : List Text :=
  pieceWords ("id=".toList ++ hex e.id ++ es.flatMap Entry.assignments)

theorem wordsFrom_nil (e : Entry) : wordsFrom e [] = ["id=".toList ++ hex e.id] := by
  have hid : ("id=".toList ++ hex e.id).all isPlain = true := by
    rw [List.all_append, hex_plain]
    rfl
  rw [wordsFrom, List.flatMap_nil, List.append_nil, pieceWords_plain (by simp) hid]

theorem wordsFrom_cons (e f : Entry) (es : List Entry) :
    wordsFrom e (f :: es) =
      ("id=".toList ++ hex e.id ++ ("start=".toList ++ printNat f.start)) ::
        ("sects=".toList ++ printNat f.sects) :: wordsFrom f es := by
  have hid : ("id=".toList ++ hex e.id).all isPlain = true := by
    rw [List.all_append, hex_plain]
    rfl
  exact pieceWords_assignments hid f es

/-- A word with another first letter. -/
theorem assign_head {n v : Text} {c d : Char} (old : Text) (hne : c ≠ d) :
    assign (c :: n) old (d :: v) = old :=
  assign_other old fun h => hne (List.cons_prefix_cons.mp h).1

theorem foldl_start (e : Entry) (es : List Entry) (old : Text) :
    (wordsFrom e es).foldl (assign "start".toList) old = old := by
  induction es generalizing e with
  | nil =>
      have hid : assign "start".toList old ("id=".toList ++ hex e.id) = old :=
        assign_head old (by decide)
      rw [wordsFrom_nil]
      exact hid
  | cons f es ih =>
      rw [wordsFrom_cons, List.foldl_cons, List.foldl_cons]
      have hid : assign "start".toList old ("id=".toList ++ hex e.id ++
          ("start=".toList ++ printNat f.start)) = old := assign_head old (by decide)
      have hsects : assign "start".toList old ("sects=".toList ++ printNat f.sects) = old :=
        assign_other old fun h =>
          absurd (List.cons_prefix_cons.mp (List.cons_prefix_cons.mp h).2).1 (by decide)
      rw [hid, hsects, ih]

theorem foldl_sects (e : Entry) (es : List Entry) :
    (wordsFrom e es).foldl (assign "sects".toList) (printNat e.sects) =
      printNat (last e es).sects := by
  induction es generalizing e with
  | nil =>
      have hid : assign "sects".toList (printNat e.sects) ("id=".toList ++ hex e.id) =
          printNat e.sects := assign_head _ (by decide)
      rw [wordsFrom_nil]
      exact hid
  | cons f es ih =>
      rw [wordsFrom_cons, List.foldl_cons, List.foldl_cons]
      have hid : assign "sects".toList (printNat e.sects) ("id=".toList ++ hex e.id ++
          ("start=".toList ++ printNat f.start)) = printNat e.sects := assign_head _ (by decide)
      have hsects : assign "sects".toList (printNat e.sects)
          ("sects=".toList ++ printNat f.sects) = printNat f.sects :=
        assign_same "sects".toList _ (printNat f.sects)
      rw [hid, hsects, ih]
      rfl

theorem foldl_id (e : Entry) (es : List Entry) (old : Text) :
    (wordsFrom e es).foldl (assign "id".toList) old = hex (last e es).id := by
  induction es generalizing e old with
  | nil =>
      rw [wordsFrom_nil]
      exact assign_same "id".toList old (hex e.id)
  | cons f es ih =>
      rw [wordsFrom_cons, List.foldl_cons, List.foldl_cons, ih]
      rfl

/-- **What is assigned**: the start of the first partition that matches, the length and the type
of the last. -/
theorem assigned_row (e : Entry) (es : List Entry) (old : Disks.Row) :
    Disks.assigned "start".toList ((e :: es).flatMap Entry.assignments) old.start =
        printNat e.start ∧
      Disks.assigned "sects".toList ((e :: es).flatMap Entry.assignments) old.sects =
        printNat (last e es).sects ∧
      Disks.assigned "id".toList ((e :: es).flatMap Entry.assignments) old.id =
        hex (last e es).id := by
  have hwords : pieceWords ((e :: es).flatMap Entry.assignments) =
      ("start=".toList ++ printNat e.start) :: ("sects=".toList ++ printNat e.sects) ::
        wordsFrom e es := pieceWords_assignments (u := []) rfl e es
  simp only [assigned_eq, hwords, List.foldl_cons]
  refine ⟨?_, ?_, foldl_id e es _⟩
  · have hstart : assign "start".toList old.start ("start=".toList ++ printNat e.start) =
        printNat e.start := assign_same "start".toList _ (printNat e.start)
    have hsects : assign "start".toList (printNat e.start)
        ("sects=".toList ++ printNat e.sects) = printNat e.start := assign_other _ fun h =>
      absurd (List.cons_prefix_cons.mp (List.cons_prefix_cons.mp h).2).1 (by decide)
    rw [hstart, hsects, foldl_start]
  · have hsects : ∀ old, assign "sects".toList old ("sects=".toList ++ printNat e.sects) =
        printNat e.sects := fun old => assign_same "sects".toList old (printNat e.sects)
    rw [hsects, foldl_sects]

/-! ## The lines -/

/-- A number in front of a comma can be told. -/
theorem comma_inj {a a' b b' : Text} (ha : a.all isPlain = true) (ha' : a'.all isPlain = true)
    (h : a ++ ',' :: b = a' ++ ',' :: b') : a = a' ∧ b = b' := by
  have hcomma : ∀ {w : Text}, w.all isPlain = true → ∀ c ∈ w, (c == ',') = false := by
    intro w hw c hc
    have hplain := List.all_eq_true.mp hw c hc
    simp only [isPlain, Bool.and_eq_true, bne_iff_ne] at hplain
    exact beq_eq_false_iff_ne.mpr hplain.2
  have hsplit := congrArg (List.splitOnP (· == ',')) h
  rw [List.splitOnP_append_cons _ _ rfl, List.splitOnP_append_cons _ _ rfl,
    List.splitOnP_eq_singleton (hcomma ha), List.splitOnP_eq_singleton (hcomma ha')] at hsplit
  have haa : a = a' := (List.cons.inj hsplit).1
  subst haa
  exact ⟨rfl, (List.cons.inj (List.append_cancel_left h)).2⟩

/-- The number that is written in hexadecimal digits. -/
def unhex (t : Text) : Nat :=
  t.foldl (fun n c => 16 * n + if c.isDigit then c.toNat - 48 else c.toNat - 87) 0

theorem unhex_hex : ∀ i : Fin 256, unhex (hex i) = i := by
  decide +kernel

theorem hex_inj {i j : Fin 256} (h : hex i = hex j) : i = j := by
  have hvalue := congrArg unhex h
  rw [unhex_hex, unhex_hex] at hvalue
  exact Fin.ext hvalue

theorem printNat_inj {m n : Nat} (h : printNat m = printNat n) : m = n := by
  have hvalue := congrArg scanInt h
  rw [printNat, printNat, scanInt_printInt, scanInt_printInt] at hvalue
  exact Int.ofNat.inj (Option.some.inj hvalue)

theorem hex_append_inj {i j : Fin 256} {b b' : Bool}
    (h : hex i ++ (if b then ",*".toList else []) = hex j ++ if b' then ",*".toList else []) :
    i = j ∧ b = b' := by
  have hno : ∀ k : Fin 256, ',' ∉ hex k := fun k hmem =>
    absurd (List.all_eq_true.mp (hex_plain k) ',' hmem) (by decide)
  have hyes : ∀ k : Fin 256, ',' ∈ hex k ++ ",*".toList := fun k =>
    List.mem_append_right _ (by decide)
  cases b with
  | false =>
      cases b' with
      | false => exact ⟨hex_inj (List.append_cancel_right h), rfl⟩
      | true => exact absurd (h ▸ hyes j) (by simpa using hno i)
  | true =>
      cases b' with
      | false => exact absurd (h.symm ▸ hyes i) (by simpa using hno j)
      | true => exact ⟨hex_inj (List.append_cancel_right h), rfl⟩

theorem line_eq (e : Entry) :
    e.line = printNat e.start ++ ',' :: (printNat e.sects ++ ',' ::
      (hex e.id ++ if e.boot then ",*".toList else [])) := by
  have hcomma : ",".toList = [','] := by decide
  unfold Entry.line
  simp only [hcomma, List.append_assoc, List.cons_append, List.nil_append]

/-- The line tells the partition. -/
theorem line_inj {e f : Entry} (h : e.line = f.line) : e = f := by
  rw [line_eq, line_eq] at h
  obtain ⟨hstart, h⟩ := comma_inj (printNat_plain _) (printNat_plain _) h
  obtain ⟨hsects, h⟩ := comma_inj (printNat_plain _) (printNat_plain _) h
  obtain ⟨hid, hboot⟩ := hex_append_inj h
  cases e
  cases f
  simp only [Entry.mk.injEq]
  exact ⟨printNat_inj hstart, printNat_inj hsects, hid, hboot⟩

def noEntry : Entry := ⟨0, 0, 0, false⟩

/-- The partition that is made for a kept one. -/
def remade (e q : Entry) : Entry := if q.sects = 0 then noEntry else ⟨e.start, q.sects, q.id, false⟩

theorem line_kept (e q : Entry) :
    Disks.Row.line ⟨printNat e.start, printNat q.sects, hex q.id⟩ = (remade e q).line := by
  have hzero : printNat q.sects = "0".toList ↔ q.sects = 0 :=
    ⟨fun h => printNat_inj (h.trans (by decide : "0".toList = printNat 0)), fun h => by rw [h]; rfl⟩
  rw [Disks.Row.line, remade]
  by_cases hsects : q.sects = 0
  · rw [if_pos (Or.inr (Or.inr (hzero.mpr hsects))), if_pos hsects]
    decide
  · rw [if_neg (fun h => h.elim (printNat_ne_nil _) fun h =>
      h.elim (printNat_ne_nil _) fun h => hsects (hzero.mp h)), if_neg hsects, Entry.line]
    exact (List.append_nil _).symm

/-- A kept partition stays as it is: it is not bootable, and the last one that is found for its
name has its length and its type. -/
def Spared (e q : Entry) : Prop :=
  e.boot = false ∧ if q.sects = 0 then e = noEntry else e.sects = q.sects ∧ e.id = q.id

theorem remade_eq_iff (e q : Entry) : remade e q = e ↔ Spared e q := by
  rw [remade, Spared]
  split
  · exact ⟨fun h => ⟨h ▸ rfl, h.symm⟩, fun h => h.2.symm⟩
  · cases e
    simp only [Entry.mk.injEq, true_and]
    exact ⟨fun h => ⟨h.2.2.symm, h.1.symm, h.2.1.symm⟩, fun h => ⟨h.2.1.symm, h.2.2.symm, h.1.symm⟩⟩

/-! ### Those that are not kept -/

theorem mbrId_of_id {c : Choice} {id : Fin 256} (h : c.type.bind PartType.id = some id)
    (old : Text) : Disks.mbrId c.typeName old = hex id := by
  have htypes : ∀ t : PartType, ∀ id ∈ t.id, ∀ old, Disks.mbrId t.name old = hex id := by
    intro t id hid old
    cases t <;> cases hid <;> rfl
  obtain ⟨t, ht, hid⟩ := Option.bind_eq_some_iff.mp h
  rw [Choice.typeName, ht]
  exact htypes t id hid old

/-- What is entered is written as it is: the length is missing or 0, or the start is missing, or
both are numbers and the type is one that can be chosen. -/
def Choice.Sent (c : Choice) : Prop :=
  (c.start = [] ∨ c.len = [] ∨ c.len = "0".toList) ∨
    (¬ Zero c.start ∧ ¬ Zero c.len ∧ ∃ id, c.type.bind PartType.id = some id)

theorem zero_nil : Zero [] := fun _ hc => absurd hc List.not_mem_nil

theorem zero_text : Zero "0".toList := fun _ hc => List.mem_singleton.mp hc

/-- The line of a partition that is not kept. -/
theorem lineOf_iff (c : Choice) (old : Text) :
    c.LineOf (Disks.Row.line ⟨c.start, c.len, Disks.mbrId c.typeName old⟩) ↔ c.Sent := by
  rw [Disks.Row.line, Choice.Sent, Choice.LineOf]
  by_cases hempty : c.start = [] ∨ c.len = [] ∨ c.len = "0".toList
  · have hzero : Zero c.start ∨ Zero c.len := by
      rcases hempty with h | h | h
      · exact Or.inl (h ▸ zero_nil)
      · exact Or.inr (h ▸ zero_nil)
      · exact Or.inr (h ▸ zero_text)
    rw [if_pos hempty]
    exact ⟨fun _ => Or.inl hempty, fun _ => ⟨fun _ => rfl, fun hnot => absurd hzero hnot⟩⟩
  · have hplain : ∀ t : Text, (∀ d ∈ t, d ∈ c.start ++ c.len) → t.all isPlain = true :=
      fun t ht => List.all_eq_true.mpr fun d hd => isPlain_of_isDigit (c.digits d (ht d hd))
    have hstart := hplain c.start fun d hd => List.mem_append_left _ hd
    have hlen := hplain c.len fun d hd => List.mem_append_right _ hd
    have hcomma : ",".toList = [','] := by decide
    -- the line of two numbers is not the empty one
    have hline : ∀ id, c.start ++ ",".toList ++ c.len ++ ",".toList ++ id ≠ "0,0,0".toList := by
      intro id h
      have hzero : "0,0,0".toList = "0".toList ++ ',' :: ("0".toList ++ ',' :: "0".toList) := by
        decide
      rw [hzero, hcomma, List.append_assoc, List.append_assoc, List.append_assoc] at h
      have hrest := (comma_inj hstart (by decide) h).2
      rw [List.singleton_append] at hrest
      exact hempty (Or.inr (Or.inr (comma_inj hlen (by decide) hrest).1))
    rw [if_neg hempty]
    constructor
    · rintro ⟨hzero, hother⟩
      have hnot : ¬ (Zero c.start ∨ Zero c.len) := fun h => hline _ (hzero h)
      obtain ⟨id, hid, _⟩ := hother hnot
      exact Or.inr ⟨fun h => hnot (Or.inl h), fun h => hnot (Or.inr h), id, hid⟩
    · rintro (h | ⟨hs, hl, id, hid⟩)
      · exact absurd h hempty
      · refine ⟨fun h => absurd h (not_or.mpr ⟨hs, hl⟩), fun _ => ⟨id, hid, ?_⟩⟩
        rw [mbrId_of_id hid]

/-! ### The table -/

/-- Each turn of the loop is one with some variables from before. -/
theorem getElem_mbrRows (dsk fout : Text) (c : Fin 4 → Choice) {is : List (Fin 4)} {k : Nat}
    {i : Fin 4} (hi : is[k]? = some i) (row : Disks.Row) :
    ∃ old, (mbrRows dsk fout c row is)[k]? = some (mbrRow dsk fout c old i) := by
  induction is generalizing k row with
  | nil => cases hi
  | cons j is ih =>
      cases k with
      | zero =>
          obtain rfl := Option.some.inj hi
          exact ⟨row, rfl⟩
      | succ k => exact ih hi _

/-- The partition that is found last for the name of this one: its own, or one from the tenth on. -/
def found (t : Table) (i : Fin 4) : Entry := last (t.primary i) (matching (pl i) 5 t.logical)

theorem mbrRow_kept {dsk fout : Text} {t : Table}
    (hlists : Lists dsk 1 t.entries (fout.splitOn '\n')) {c : Fin 4 → Choice} {i : Fin 4}
    (hkeep : (c i).keep = true) (old : Disks.Row) :
    (mbrRow dsk fout c old i).line = (remade (t.primary i) (found t i)).line := by
  have hout : awkRow (dsk ++ pl i) fout =
      (t.primary i :: matching (pl i) 5 t.logical).flatMap Entry.assignments := by
    rw [awkRow, awkRow_of_lists i hlists, matching_entries]
  obtain ⟨hstart, hsects, hid⟩ :=
    assigned_row (t.primary i) (matching (pl i) 5 t.logical) old
  rw [← line_kept, mbrRow, if_pos hkeep]
  dsimp only
  rw [hout, hstart, hsects, hid]
  rfl

/-- **The table for sfdisk** is right, if and only if every kept partition is not bootable and the
last one that is found for its name, and what is entered for the others can be written. -/
theorem fmtLines_respects_iff {dsk fout : Text} {t : Table}
    (hlists : Lists dsk 1 t.entries ((listed dsk fout).splitOn '\n')) (c : Fin 4 → Choice)
    (row : Disks.Row) :
    Respects t c (fmtLines dsk fout c row) ↔
      ∀ i, if (c i).keep then Spared (t.primary i) (found t i) else (c i).Sent := by
  refine forall_congr' fun i => ?_
  have hi : (List.finRange 4)[i.val]? = some i := by simp
  obtain ⟨old, hrow⟩ := getElem_mbrRows dsk (listed dsk fout) c hi row
  have hline : (fmtLines dsk fout c row)[i.val]? =
      some (mbrRow dsk (listed dsk fout) c old i).line := by
    rw [fmtLines, List.getElem?_map, hrow, Option.map_some]
  rw [hline]
  by_cases hkeep : (c i).keep = true
  · rw [if_pos hkeep, ← remade_eq_iff]
    constructor
    · rintro ⟨l, hl, hright⟩
      rw [if_pos hkeep] at hright
      exact line_inj ((mbrRow_kept hlists hkeep old).symm.trans ((Option.some.inj hl).trans hright))
    · intro hsame
      refine ⟨_, rfl, ?_⟩
      rw [if_pos hkeep, mbrRow_kept hlists hkeep old, hsame]
  · rw [if_neg hkeep]
    have hother : mbrRow dsk (listed dsk fout) c old i =
        ⟨(c i).start, (c i).len, Disks.mbrId (c i).typeName old.id⟩ := by
      rw [mbrRow, if_neg hkeep]
    rw [← lineOf_iff (c i) old.id, hother]
    constructor
    · rintro ⟨l, hl, hright⟩
      rw [if_neg hkeep] at hright
      exact (Option.some.inj hl).symm ▸ hright
    · intro hright
      refine ⟨_, rfl, ?_⟩
      rw [if_neg hkeep]
      exact hright

/-! ### A disk with two partitions -/

/-- What sfdisk lists, without the flag. -/
def twoListing : Text :=
  "   Device Boot    Start       End   #sectors  Id  System
/dev/sda1            64   1048639    1048576  82  Linux swap
/dev/sda2       1048640   3907023    2858384  83  Linux
/dev/sda3             0         -          0   0  Empty
/dev/sda4             0         -          0   0  Empty".toList

/-- The table, where the second partition may be bootable. -/
def twoTable (boot : Bool) : Table where
  primary
    | 0 => ⟨64, 1048576, 0x82, false⟩
    | 1 => ⟨1048640, 2858384, 0x83, boot⟩
    | _ => noEntry
  logical := []

set_option maxRecDepth 4000 in
theorem twoTable_lists (boot : Bool) :
    Lists "sda".toList 1 (twoTable boot).entries
      ((listed "sda".toList twoListing).splitOn '\n') := by
  have hlines : (listed "sda".toList twoListing).splitOn '\n' =
      ["   Device Boot    Start       End   #sectors  Id  System".toList,
        "/dev/sda1            64   1048639    1048576  82  Linux swap".toList,
        "/dev/sda2       1048640   3907023    2858384  83  Linux".toList,
        "/dev/sda3             0         -          0   0  Empty".toList,
        "/dev/sda4             0         -          0   0  Empty".toList] := by
    have htext : twoListing = _ := toList_literal rfl
    rw [listed, htext]
    repeat rw [toList_literal (s := _) rfl]
    decide +kernel
  have hentries : (twoTable boot).entries = [⟨64, 1048576, 0x82, false⟩,
      ⟨1048640, 2858384, 0x83, boot⟩, noEntry, noEntry] := rfl
  rw [hlines, hentries]
  refine .other (by decide +kernel) (.entry ⟨⟨"/dev/sda1".toList, "1048639".toList,
    ["Linux".toList, "swap".toList], by decide +kernel⟩, by decide +kernel⟩ (.entry
      ⟨⟨"/dev/sda2".toList, "3907023".toList, ["Linux".toList], ?_⟩, by decide +kernel⟩
      (.entry ⟨⟨"/dev/sda3".toList, "-".toList, ["Empty".toList], by decide +kernel⟩,
        by decide +kernel⟩ (.entry ⟨⟨"/dev/sda4".toList, "-".toList, ["Empty".toList],
          by decide +kernel⟩, by decide +kernel⟩ (.nil 5)))))
  cases boot <;> decide +kernel

/-- The first two partitions are kept, the third one is new. -/
def keepTwo : Fin 4 → Choice
  | 0 => ⟨true, [], [], none, nofun⟩
  | 1 => ⟨true, [], [], none, nofun⟩
  | 2 => ⟨false, "3907024".toList, "8000".toList, some .linux, List.all_eq_true.mp (by decide)⟩
  | 3 => ⟨false, [], [], none, nofun⟩

/-- The variables before the loop. -/
def unset : Disks.Row := ⟨[], [], []⟩

theorem keepTwo_spared (i : Fin 4) :
    if (keepTwo i).keep then Spared ((twoTable false).primary i) (found (twoTable false) i)
      else (keepTwo i).Sent := by
  match i with
  | 0 => exact ⟨rfl, rfl, rfl⟩
  | 1 => exact ⟨rfl, rfl, rfl⟩
  | 2 => exact Or.inr ⟨fun h => absurd (h '3' (by decide)) (by decide),
      fun h => absurd (h '8' (by decide)) (by decide), 0x83, rfl⟩
  | 3 => exact Or.inl (Or.inl rfl)

theorem fmtLines_keepTwo :
    Respects (twoTable false) keepTwo (fmtLines "sda".toList twoListing keepTwo unset) :=
  (fmtLines_respects_iff (twoTable_lists false) keepTwo unset).mpr keepTwo_spared

set_option maxRecDepth 4000 in
example : fmtLines "sda".toList twoListing keepTwo unset =
    ["64,1048576,82".toList, "1048640,2858384,83".toList, "3907024,8000,83".toList,
      "0,0,0".toList] := by
  have htext : twoListing = _ := toList_literal rfl
  rw [htext]
  decide +kernel

set_option maxRecDepth 4000 in
/-- The listing is that of a bootable partition too, whose flag is lost. -/
theorem bootable_lost :
    ¬ ∀ (dsk fout : Text) (t : Table), Lists dsk 1 t.entries ((listed dsk fout).splitOn '\n') →
      ∀ (c : Fin 4 → Choice) (row : Disks.Row), Respects t c (fmtLines dsk fout c row) := by
  intro h
  obtain ⟨l, hl, hkept⟩ := h _ _ _ (twoTable_lists true) keepTwo unset 1
  have htext : twoListing = _ := toList_literal rfl
  rw [if_pos (by decide)] at hkept
  rw [htext] at hl
  subst hkept
  exact absurd hl (by decide +kernel)

/-! ## The script -/

/-- A command that reads a variable, or a line of the listing. -/
def Reads (fout cmd : Text) : Prop :=
  (∃ name, cmd = "eval echo $".toList ++ name) ∨
    ∃ ppart, cmd = "echo ".toList ++ fout ++ " | awk ".toList ++ ppart

def writeCmd (fmtfile l : Text) : Text := "echo ".toList ++ l ++ " >> ".toList ++ fmtfile

/-- The commands write these lines, and read what is needed for them. -/
inductive Wrote (fmtfile fout : Text) (base : List Text) : List Text → List Text → Prop where
  | start : Wrote fmtfile fout base [] base
  | read {ls calls : List Text} {cmd : Text} (h : Wrote fmtfile fout base ls calls)
      (hcmd : Reads fout cmd) : Wrote fmtfile fout base ls (calls ++ [cmd])
  | write {ls calls : List Text} (l : Text) (h : Wrote fmtfile fout base ls calls) :
      Wrote fmtfile fout base (ls ++ [l]) (calls ++ [writeCmd fmtfile l])

/-- On the box the variables of the form are these, and awk does what the program says. -/
structure Answers (box : Disks.Box) (dsk fout : Text) (c : Fin 4 → Choice) : Prop where
  keep : ∀ calls i, commandSubst (box.tools calls
    ("eval echo $".toList ++ ("keep_".toList ++ (dsk ++ pl i)))).out =
      if (c i).keep then "yes".toList else []
  type : ∀ calls i, commandSubst (box.tools calls
    ("eval echo $".toList ++ ("type_".toList ++ (dsk ++ pl i)))).out = (c i).typeName
  start : ∀ calls i, commandSubst (box.tools calls
    ("eval echo $".toList ++ ("start_".toList ++ (dsk ++ pl i)))).out = (c i).start
  len : ∀ calls i, commandSubst (box.tools calls
    ("eval echo $".toList ++ ("len_".toList ++ (dsk ++ pl i)))).out = (c i).len
  awk : ∀ calls ppart, commandSubst (box.tools calls
    ("echo ".toList ++ fout ++ " | awk ".toList ++ ppart)).out = awkRow ppart fout

section Script

variable {box : Disks.Box} {dsk fout fmtfile : Text} {c : Fin 4 → Choice} {base ls : List Text}
  {E : Disks.Ending → Disks.World → Prop}

/-- The commands so far. -/
abbrev Has (fmtfile fout : Text) (base ls : List Text) (w : Disks.World) : Prop :=
  Wrote fmtfile fout base ls w.calls

theorem capture_has {cmd v : Text} (hcmd : Reads fout cmd)
    (hv : ∀ calls, commandSubst (box.tools calls cmd).out = v) :
    Runs (Has fmtfile fout base ls) (Disks.capture box cmd)
      (fun r w => r = v ∧ Has fmtfile fout base ls w) E := by
  intro w hw
  rw [Disks.capture_run]
  exact ⟨hv w.calls, hw.read hcmd⟩

/-- One turn of the loop. -/
theorem mbrRow_has (hbox : Answers box dsk fout c) (old : Disks.Row) {i : Fin 4} {s : String}
    (hs : s.toList = pl i) :
    Runs (Has fmtfile fout base ls) (Disks.mbrRow box dsk fmtfile fout old s)
      (fun r w => r = mbrRow dsk fout c old i ∧
        Has fmtfile fout base (ls ++ [(mbrRow dsk fout c old i).line]) w) E := by
  unfold Disks.mbrRow
  rw [hs]
  refine Runs.bind_value (capture_has (Or.inl ⟨_, rfl⟩) fun calls => hbox.keep calls i) ?_
  have hyes : (if (c i).keep = true then "yes".toList else []) = "yes".toList ↔
      (c i).keep = true := by
    cases (c i).keep <;> decide
  refine Runs.bind_value (a := mbrRow dsk fout c old i) (R := Has fmtfile fout base ls)
    (Runs.ite (fun hkeep => ?_) fun hkeep => ?_) ?_
  · rw [mbrRow, if_pos (hyes.mp hkeep)]
    exact Runs.bind_value (capture_has (Or.inr ⟨_, rfl⟩) fun calls => hbox.awk calls _)
      (Runs.pure fun w hw => ⟨rfl, hw⟩)
  · rw [mbrRow, if_neg fun h => hkeep (hyes.mpr h)]
    exact Runs.bind_value (capture_has (Or.inl ⟨_, rfl⟩) fun calls => hbox.type calls i)
      (Runs.bind_value (capture_has (Or.inl ⟨_, rfl⟩) fun calls => hbox.start calls i)
        (Runs.bind_value (capture_has (Or.inl ⟨_, rfl⟩) fun calls => hbox.len calls i)
          (Runs.pure fun w hw => ⟨rfl, hw⟩)))
  · refine Runs.bind (Q := fun _ => Has fmtfile fout base
      (ls ++ [(mbrRow dsk fout c old i).line])) ?_ fun _ => Runs.pure fun w hw => ⟨rfl, hw⟩
    intro w hw
    rw [Disks.quiet_run]
    exact hw.write _

/-- **The script**: what its loop writes into the file are the lines of `mbrRows`. -/
theorem mbrRows_has (hbox : Answers box dsk fout c) (is : List (Fin 4)) (ss : List String)
    (hss : List.Forall₂ (fun s i => String.toList s = pl i) ss is) (old : Disks.Row) :
    Runs (Has fmtfile fout base ls) (ss.foldlM (Disks.mbrRow box dsk fmtfile fout) old)
      (fun _ => Has fmtfile fout base
        (ls ++ (mbrRows dsk fout c old is).map Disks.Row.line)) E := by
  induction hss generalizing old ls with
  | nil =>
      refine Runs.pure fun w hw => ?_
      rw [mbrRows, List.map_nil, List.append_nil]
      exact hw
  | @cons s i ss is hs _ ih =>
      refine Runs.bind_value (mbrRow_has hbox old hs) ((ih _).weaken (fun _ hw => hw)
        fun _ w hw => ?_)
      rw [List.append_assoc] at hw
      exact hw

/-- The four turns. -/
theorem partitionMBR_has (hbox : Answers box dsk (listed dsk fout) c) (row : Disks.Row) :
    Runs (Has fmtfile (listed dsk fout) base [])
      (["1", "2", "3", "4"].foldlM (Disks.mbrRow box dsk fmtfile (listed dsk fout)) row)
      (fun _ => Has fmtfile (listed dsk fout) base (fmtLines dsk fout c row)) E := by
  refine mbrRows_has hbox (List.finRange 4) _ ?_ row
  exact .cons (by decide) (.cons (by decide) (.cons (by decide) (.cons (by decide) .nil)))

end Script

end AltF.Cgi.KeptPartitions
