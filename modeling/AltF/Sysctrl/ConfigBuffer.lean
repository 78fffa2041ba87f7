/-
  Sysctrl/ConfigBuffer.lean --- `read_config` of sysctrl.c as it works on its buffer of 128
  characters: comments, names and values are cut out of a line in place.

  Where nothing outside of the buffer is touched, the pieces are read as in Config.  A piece that
  is not blank and has no `=` in front of its comment is read through `(char *) 1`; a comment that
  does not fit into the buffer goes on as a line of its own.  A comment begins at the first `#`,
  in quotes or not.
-/
import AltF.Foundation.CStrings
import AltF.Sysctrl.Config

set_option autoImplicit false

namespace AltF.Sysctrl

open AltF.Foundation AltF.SysFiles

/-! ## In place -/

namespace InPlace

variable {n : Nat}

/-- `while (end > *str && isspace(end[-1])) *--end = 0;` -/
def trimEnd (b : Buffer n) (str : Nat) : Nat → Option (Nat × Buffer n)
  | 0 => some (0, b)
  | e + 1 =>
      if str < e + 1 then do
        let c ← b.load (.at e)
        if isSpace c then do
          let b ← b.store (.at e) nul
          trimEnd b str e
        else some (e + 1, b)
      else some (e + 1, b)

/-- The quotes of `trim`; the character in front of the whole buffer cannot be read. -/
def unquote (b : Buffer n) (str stop : Nat) : Option (Nat × Buffer n) := do
  let c ← b.load (.at str)
  if c = '"' then
    match stop with
    | 0 => none
    | e + 1 => do
        let d ← b.load (.at e)
        if d = '"' then do
          let b ← b.store (.at e) nul
          some (str + 1, b)
        else some (str, b)
  else some (str, b)

/-- Where `trim` lets a string end: at `end`, or at its zero. -/
def cut (b : Buffer n) (str : Nat) (stop : Ptr) : Option (Nat × Buffer n) :=
  match stop with
  | .at e => (b.store (.at e) nul).map fun b => (e, b)
  | .wild 0 => (b.strlen str).map fun k => (str + k, b)
  | .wild _ => none

/-- `trim` -/
def trim (b : Buffer n) (str stop : Ptr) : Option (Ptr × Buffer n) :=
  match str with
  | .at i => do
      let i ← b.skipWhile isSpace i
      let (e, b) ← cut b i stop
      let (e, b) ← trimEnd b i e
      let (i, b) ← unquote b i e
      some (.at i, b)
  | .wild _ => none

def blanks : List Char := [' ', '\x0c', '\n', '\r', '\t', '\x0b']

/-- `// strip comments` -/
def stripComment (str : Buffer n) : Option (Buffer n) := do
  let ptr ← str.strchr 0 '#'
  if ptr = .null then some str else str.store ptr nul

/-- The `while` of `read_config`, with what `fgets` left in `str`. -/
def readStr (h : Daemon) (args : Settings) (str : Buffer n) : Option (Settings × Buffer n) := do
  let str ← stripComment str
  if (← str.strspn 0 blanks) = (← str.strlen 0) then some (args, str)
  else do
    let v ← str.strchr 0 '='
    let (name, str) ← trim str (.at 0) v
    let (v, str) ← trim str v.succ .null
    some (h.config args (← str.text name) (← str.text v), str)

/-- `read_config` -/
def readConfig (h : Daemon) (args : Settings) (str : Buffer 128) (text : Text) :
    Option (Settings × Buffer 128) :=
  (fgets text).foldlM (fun s p => readStr h s.1 (s.2.fill p)) (args, str)

/-! ## What is cut out -/

variable {b : Buffer n} {x y t : Text}

theorem trimEnd_self (i : Nat) : trimEnd b i i = some (i, b) := by
  cases i with
  | zero => rfl
  | succ i => rw [trimEnd, if_neg (Nat.lt_irrefl _)]

theorem trimEnd_eq (hb : b.bytes = x ++ t ++ y) :
    ∃ b' k, trimEnd b x.length (x.length + t.length) =
        some (x.length + (t.rdropWhile isSpace).length, b') ∧
      b'.bytes = x ++ t.rdropWhile isSpace ++ (List.replicate k nul ++ y) ∧
      (t.rdropWhile isSpace).length + k = t.length := by
  induction t using List.reverseRecOn generalizing b y with
  | nil => exact ⟨b, 0, trimEnd_self _, hb, rfl⟩
  | append_singleton t c ih =>
      have hlen : x.length + (t ++ [c]).length = (x ++ t).length + 1 := by
        rw [List.length_append, List.length_append, List.length_singleton]
        omega
      have hlt : x.length < (x ++ t).length + 1 := by
        rw [List.length_append]
        omega
      have hc : b.bytes = (x ++ t) ++ c :: y := by
        rw [hb]
        simp only [List.append_assoc, List.cons_append, List.nil_append]
      rw [hlen, trimEnd, if_pos hlt, Buffer.load_eq hc]
      by_cases hspace : isSpace c = true
      · obtain ⟨b', hstore, hb'⟩ := Buffer.store_eq hc nul
        obtain ⟨b'', k, htrim, hb'', hk⟩ := ih hb'
        rw [List.rdropWhile_concat_pos _ _ _ hspace]
        refine ⟨b'', k + 1, ?_, ?_, ?_⟩
        · rw [List.length_append] at hstore ⊢
          simp only [Option.bind_eq_bind, Option.bind_some, if_pos hspace, hstore, htrim]
        · rw [hb'', List.replicate_succ']
          simp only [List.append_assoc, List.cons_append, List.nil_append]
        · rw [List.length_append, List.length_singleton]
          omega
      · rw [List.rdropWhile_concat_neg _ _ _ hspace]
        refine ⟨b, 0, ?_, hb, rfl⟩
        rw [Option.bind_eq_bind, Option.bind_some, if_neg hspace, ← hlen]

/-- A text without its quotes. -/
def bare (t : Text) : Text :=
  if t.head? = some '"' ∧ t.getLast? = some '"' then t.tail.dropLast else t

theorem trim_eq_bare (t : Text) :
    Sysctrl.trim t = bare ((t.dropWhile isSpace).rdropWhile isSpace) := rfl

theorem unquote_of_ne {i : Nat} {c : Char} (hload : b.load (.at i) = some c) (hc : c ≠ '"')
    (e : Nat) : unquote b i e = some (i, b) := by
  unfold unquote
  simp only [hload, Option.bind_eq_bind, Option.bind_some, if_neg hc]

theorem unquote_of_open {i e : Nat} {d : Char} (hload : b.load (.at i) = some '"')
    (hlast : b.load (.at e) = some d) (hd : d ≠ '"') : unquote b i (e + 1) = some (i, b) := by
  unfold unquote
  simp only [hload, hlast, Option.bind_eq_bind, Option.bind_some, if_true, if_neg hd]

theorem unquote_of_quotes {i e : Nat} {b' : Buffer n} (hload : b.load (.at i) = some '"')
    (hlast : b.load (.at e) = some '"') (hstore : b.store (.at e) nul = some b') :
    unquote b i (e + 1) = some (i + 1, b') := by
  unfold unquote
  simp only [hload, hlast, hstore, Option.bind_eq_bind, Option.bind_some, if_true]

/-- Both quotes are taken; a single one is both of them. -/
theorem unquote_quotes {m : Text} (hm : t = m ++ ['"']) (hhead : t.head? = some '"')
    (hb : b.bytes = x ++ t ++ nul :: y) :
    ∃ b' l r, unquote b x.length (x.length + t.length) = some (x.length + l.length, b') ∧
      b'.bytes = x ++ l ++ t.tail.dropLast ++ nul :: (r ++ y) ∧
      l.length + t.tail.dropLast.length + r.length = t.length := by
  have hlen : x.length + t.length = (x ++ m).length + 1 := by
    rw [hm, List.length_append, List.length_append, List.length_singleton, Nat.add_assoc]
  have hlast : b.bytes = (x ++ m) ++ '"' :: nul :: y := by
    rw [hb, hm]
    simp only [List.append_assoc, List.cons_append, List.nil_append]
  have hload : b.load (.at x.length) = some '"' := by
    cases t with
    | nil => cases hhead
    | cons c t =>
        obtain rfl : c = '"' := Option.some.inj hhead
        rw [List.append_assoc] at hb
        exact Buffer.load_eq hb
  obtain ⟨b', hstore, hb'⟩ := Buffer.store_eq hlast nul
  have hrun := unquote_of_quotes hload (Buffer.load_eq hlast) hstore
  rw [hlen, hrun]
  cases m with
  | nil =>
      rw [hm]
      exact ⟨b', [nul], [], rfl, by rw [hb']; simp, rfl⟩
  | cons q m =>
      obtain rfl : q = '"' := by
        rw [hm] at hhead
        exact Option.some.inj hhead
      have hinner : t.tail.dropLast = m := by
        rw [hm, List.cons_append, List.tail_cons, List.dropLast_concat]
      refine ⟨b', ['"'], [nul], rfl, ?_, ?_⟩
      · rw [hb', hinner]
        simp only [List.append_assoc, List.cons_append, List.nil_append]
      · rw [hinner, hm]
        simp only [List.length_cons, List.length_append, List.length_nil]
        omega

theorem unquote_eq (hb : b.bytes = x ++ t ++ nul :: y) :
    ∃ b' l r, unquote b x.length (x.length + t.length) = some (x.length + l.length, b') ∧
      b'.bytes = x ++ l ++ bare t ++ nul :: (r ++ y) ∧
      l.length + (bare t).length + r.length = t.length := by
  by_cases hquotes : t.head? = some '"' ∧ t.getLast? = some '"'
  · obtain ⟨m, hm⟩ := List.getLast?_eq_some_iff.mp hquotes.2
    have hbare : bare t = t.tail.dropLast := if_pos hquotes
    rw [hbare]
    exact unquote_quotes hm hquotes.1 hb
  · have hbare : bare t = t := if_neg hquotes
    have hsame : unquote b x.length (x.length + t.length) = some (x.length, b) := by
      cases t with
      | nil =>
          rw [List.append_nil] at hb
          exact unquote_of_ne (Buffer.load_eq hb) (by decide) _
      | cons c t =>
          have hload : b.load (.at x.length) = some c := by
            rw [List.append_assoc] at hb
            exact Buffer.load_eq hb
          by_cases hc : c = '"'
          · subst hc
            obtain ⟨m, d, hm⟩ : ∃ m d, '"' :: t = m ++ [d] := by
              rcases List.eq_nil_or_concat ('"' :: t) with hnil | ⟨m, d, hm⟩
              · cases hnil
              · exact ⟨m, d, hm.trans List.concat_eq_append⟩
            have hd : d ≠ '"' := fun h => hquotes ⟨rfl, by rw [hm, List.getLast?_concat, h]⟩
            have hlen : x.length + ('"' :: t).length = (x ++ m).length + 1 := by
              rw [hm, List.length_append, List.length_append, List.length_singleton,
                Nat.add_assoc]
            have hlast : b.bytes = (x ++ m) ++ d :: nul :: y := by
              rw [hb, hm]
              simp only [List.append_assoc, List.cons_append, List.nil_append]
            rw [hlen]
            exact unquote_of_open hload (Buffer.load_eq hlast) hd
          · exact unquote_of_ne hload hc _
    refine ⟨b, [], [], hsame, ?_, ?_⟩
    · rw [hb, hbare, List.append_nil]
      rfl
    · rw [hbare]
      exact Nat.zero_add _

/-- How a string ends for `trim`. -/
def EndsAt (stop : Ptr) (i : Nat) (c : Char) : Prop :=
  stop = .at i ∧ isSpace c = false ∨ stop = .null ∧ c = nul

theorem cut_eq {c : Char} {i : Nat} {stop : Ptr} {w : Text} (hb : b.bytes = x ++ w ++ t ++ c :: y)
    (ht : nul ∉ t) (hi : i = (x ++ w ++ t).length) (hstop : EndsAt stop i c) :
    ∃ b', cut b (x ++ w).length stop = some (i, b') ∧ b'.bytes = x ++ w ++ t ++ nul :: y := by
  subst hi
  rcases hstop with ⟨rfl, -⟩ | ⟨rfl, rfl⟩
  · obtain ⟨b', hstore, hb'⟩ := Buffer.store_eq hb nul
    exact ⟨b', by rw [cut, hstore]; rfl, hb'⟩
  · refine ⟨b, ?_, hb⟩
    rw [Ptr.null, cut, Buffer.strlen_eq hb ht, Option.map_some, ← List.length_append]

/-- **A trim in place**: the trimmed text is left somewhere in what it was, with its zero. -/
theorem trim_eq {c : Char} {i j : Nat} {stop : Ptr} (hb : b.bytes = x ++ t ++ c :: y)
    (ht : nul ∉ t) (hi : i = x.length) (hj : j = (x ++ t).length) (hstop : EndsAt stop j c) :
    ∃ b' l r, trim b (.at i) stop = some (.at (x ++ l).length, b') ∧
      b'.bytes = x ++ l ++ Sysctrl.trim t ++ nul :: (r ++ y) ∧
      l.length + (Sysctrl.trim t).length + r.length = t.length := by
  subst hi
  have hspace : isSpace c = false := by
    rcases hstop with ⟨-, h⟩ | ⟨-, rfl⟩
    · exact h
    · decide
  have hskip := Buffer.skipWhile_takeWhile hb hspace
  have hsplit := List.takeWhile_append_dropWhile (p := isSpace) (l := t)
  rw [trim_eq_bare]
  generalize t.takeWhile isSpace = w at hskip hsplit
  generalize t.dropWhile isSpace = s at hsplit ⊢
  subst hsplit
  rw [← List.append_assoc] at hb hj
  have hs : nul ∉ s := fun h => ht (List.mem_append_right w h)
  obtain ⟨b₁, hcut, hb₁⟩ := cut_eq hb hs hj hstop
  obtain ⟨b₂, k, htrim, hb₂, hk⟩ := trimEnd_eq hb₁
  have hzeros : List.replicate k nul ++ nul :: y = nul :: (List.replicate k nul ++ y) := by
    rw [List.append_cons, ← List.replicate_succ', List.replicate_succ, List.cons_append]
  rw [hzeros] at hb₂
  obtain ⟨b₃, l, r, hquote, hb₃, hlen⟩ := unquote_eq hb₂
  refine ⟨b₃, w ++ l, r ++ List.replicate k nul, ?_, ?_, ?_⟩
  · rw [hj] at hcut
    simp only [List.length_append, ← Nat.add_assoc] at hcut htrim hquote ⊢
    rw [trim, hskip]
    simp only [Option.bind_eq_bind, Option.bind_some, hcut, htrim, hquote]
  · rw [hb₃]
    simp only [List.append_assoc]
  · simp only [List.length_append, List.length_replicate]
    omega

theorem trim_null_succ (stop : Ptr) : trim b Ptr.null.succ stop = none := rfl

theorem blanks_contains (c : Char) : blanks.contains c = isSpace c := by
  rw [Bool.eq_iff_iff, List.contains_iff_mem]
  simp only [blanks, isSpace, List.mem_cons, List.not_mem_nil, or_false, Bool.or_eq_true,
    beq_iff_eq]
  tauto

end InPlace

/-! ## A piece of the file -/

theorem mem_of_mem_trim {t : Text} {c : Char} (hc : c ∈ trim t) : c ∈ t := by
  have hstrip : ∀ c ∈ (t.dropWhile isSpace).rdropWhile isSpace, c ∈ t := fun c hc =>
    (List.dropWhile_suffix _).subset ((List.rdropWhile_prefix _ _).subset hc)
  rw [trim] at hc
  split at hc
  · exact hstrip c (List.mem_of_mem_tail (List.dropLast_subset _ hc))
  · exact hstrip c hc

/-- What is read of it: up to a zero or a comment. -/
def read (p : Text) : Text := (cString p).takeWhile (· ≠ '#')

theorem takeWhile_all {f : Char → Bool} {t : Text} :
    (t.takeWhile f).length = t.length ↔ t.all f = true := by
  rw [List.all_eq_true, ← List.takeWhile_eq_self_iff]
  exact ⟨fun h => (List.takeWhile_prefix f).eq_of_length h, fun h => by rw [h]⟩

namespace InPlace

variable {n : Nat} {b : Buffer n} {y s : Text} {h : Daemon}

/-- A comment is cut off. -/
theorem comment_eq (hb : b.bytes = s ++ nul :: y) (hs : nul ∉ s) :
    ∃ b' y', stripComment b = some b' ∧ b'.bytes = s.takeWhile (· ≠ '#') ++ nul :: y' := by
  have hb₀ : b.bytes = [] ++ s ++ nul :: y := hb
  by_cases hhash : '#' ∈ s
  · obtain ⟨u, v, rfl, hu⟩ := List.eq_append_cons_of_mem hhash
    have hnul : nul ∉ u := fun hmem => hs (List.mem_append_left _ hmem)
    have hfound : b.bytes = [] ++ u ++ '#' :: (v ++ nul :: y) := by
      rw [hb₀]
      simp only [List.append_assoc, List.cons_append]
    obtain ⟨b', hstore, hb'⟩ := Buffer.store_eq hfound nul
    have hchr : b.strchr 0 '#' = some (.at ([] ++ u).length) := Buffer.strchr_eq hfound hnul hu
    refine ⟨b', v ++ nul :: y, ?_, ?_⟩
    · rw [stripComment, hchr, Option.bind_eq_bind, Option.bind_some, if_neg nofun, hstore]
    · rw [takeWhile_ne_append hu]
      exact hb'
  · rw [takeWhile_ne_self hhash]
    have hchr : b.strchr 0 '#' = some .null := Buffer.strchr_eq_null hb₀ hs hhash (by decide)
    refine ⟨b, y, ?_, hb⟩
    rw [stripComment, hchr, Option.bind_eq_bind, Option.bind_some, if_pos rfl]

theorem config_eq {u v : Text} (hb : b.bytes = u ++ '=' :: v ++ nul :: y) (hu : '=' ∉ u)
    (hs : nul ∉ u ++ '=' :: v) :
    ∃ p name v' b' b'', b.strchr 0 '=' = some p ∧
      trim b (.at 0) p = some (name, b') ∧ trim b' p.succ .null = some (v', b'') ∧
      b''.text name = some (Sysctrl.trim u) ∧ b''.text v' = some (Sysctrl.trim v) := by
  have hnulu : nul ∉ u := fun h => hs (List.mem_append_left _ h)
  have hnulv : nul ∉ v := fun h => hs (List.mem_append_right _ (List.mem_cons_of_mem _ h))
  have hequal : b.bytes = [] ++ u ++ '=' :: (v ++ nul :: y) := by
    rw [hb]
    simp only [List.append_assoc, List.cons_append, List.nil_append]
  have hchr : b.strchr 0 '=' = some (.at u.length) := Buffer.strchr_eq hequal hnulu hu
  obtain ⟨b', l, r, htrim, hb', hlen⟩ :=
    trim_eq hequal hnulu rfl rfl (.inl ⟨rfl, by decide⟩)
  -- the value is behind all that the name left
  have hvalue : b'.bytes = (l ++ Sysctrl.trim u ++ nul :: r) ++ v ++ nul :: y := by
    rw [hb']
    simp only [List.append_assoc, List.cons_append, List.nil_append]
  have hstart : u.length + 1 = (l ++ Sysctrl.trim u ++ nul :: r).length := by
    simp only [List.length_append, List.length_cons]
    omega
  obtain ⟨b'', l', r', htrim', hb'', -⟩ :=
    trim_eq hvalue hnulv hstart rfl (.inr ⟨rfl, rfl⟩)
  refine ⟨_, _, _, b', b'', hchr, htrim, htrim', ?_, ?_⟩
  · refine Buffer.text_eq (y := r ++ l' ++ Sysctrl.trim v ++ nul :: (r' ++ y)) ?_ fun h =>
      hnulu (mem_of_mem_trim h)
    rw [hb'']
    simp only [List.append_assoc, List.cons_append, List.nil_append]
  · exact Buffer.text_eq hb'' fun h => hnulv (mem_of_mem_trim h)

/-- **A piece in the buffer** is read as Config reads it. -/
theorem readStr_eq (args : Settings) (hb : b.bytes = s ++ nul :: y) (hs : nul ∉ s) :
    (readStr h args b).map Prod.fst = h.readLine args s := by
  obtain ⟨b₁, y₁, hstrip, hb₁⟩ := comment_eq hb hs
  have hs₁ : nul ∉ s.takeWhile (· ≠ '#') := fun hmem =>
    hs ((List.takeWhile_prefix _).subset hmem)
  rw [readStr, Daemon.readLine]
  simp only [Option.bind_eq_bind, Option.bind_some, hstrip]
  generalize s.takeWhile (· ≠ '#') = str at hb₁ hs₁ ⊢
  have hstr : b₁.bytes = [] ++ str ++ nul :: y₁ := hb₁
  have hspn : b₁.strspn 0 blanks = some (str.takeWhile isSpace).length :=
    (Buffer.strspn_eq hstr hs₁).trans (by rw [funext blanks_contains])
  have hlen : b₁.strlen 0 = some str.length := Buffer.strlen_eq hstr hs₁
  simp only [hspn, hlen, Option.bind_some, takeWhile_all]
  split
  · rfl
  · by_cases hequal : '=' ∈ str
    · obtain ⟨u, v, rfl, hu⟩ := List.eq_append_cons_of_mem hequal
      obtain ⟨p, name, v', b₂, b₃, hp, htrim, htrim', hname, hv⟩ := config_eq hb₁ hu hs₁
      rw [takeWhile_ne_append hu, dropWhile_ne_append hu]
      simp only [hp, htrim, htrim', hname, hv, Option.bind_some, Option.map_some]
    · obtain ⟨b₂, l, r, htrim, -, -⟩ := trim_eq hstr hs₁ rfl rfl (.inr ⟨rfl, rfl⟩)
      have hchr : b₁.strchr 0 '=' = some .null :=
        Buffer.strchr_eq_null hstr hs₁ hequal (by decide)
      have htrim' : trim b₁ (.at 0) .null = some (.at l.length, b₂) := htrim
      rw [dropWhile_ne_nil hequal]
      simp only [hchr, htrim', Option.bind_some, trim_null_succ, Option.bind_none,
        Option.map_none]

theorem cString_split (p y : Text) : ∃ y', p ++ nul :: y = cString p ++ nul :: y' := by
  by_cases hnul : nul ∈ p
  · obtain ⟨u, v, rfl, hu⟩ := List.eq_append_cons_of_mem hnul
    refine ⟨v ++ nul :: y, ?_⟩
    have hcut : cString (u ++ nul :: v) = u := takeWhile_ne_append hu
    rw [hcut, List.append_assoc, List.cons_append]
  · have hcut : cString p = p := takeWhile_ne_self hnul
    exact ⟨y, by rw [hcut]⟩

theorem nul_notMem_cString (p : Text) : nul ∉ cString p := fun h => by
  have hne : decide (nul ≠ '\x00') = true :=
    List.mem_takeWhile_imp (p := fun c => decide (c ≠ '\x00')) h
  exact of_decide_eq_true hne rfl

theorem readStr_fill {p : Text} (args : Settings) (b : Buffer 128) (hp : p.length ≤ 127) :
    (readStr h args (b.fill p)).map Prod.fst = h.readLine args (cString p) := by
  obtain ⟨y, hfill⟩ := Buffer.fill_eq (b := b) (Nat.lt_succ_of_le hp)
  obtain ⟨y', hsplit⟩ := cString_split p y
  exact readStr_eq args (hfill.trans hsplit) (nul_notMem_cString p)

theorem foldlM_readStr {ps : List Text} (hps : ∀ p ∈ ps, p.length ≤ 127) (args : Settings)
    (b : Buffer 128) :
    (ps.foldlM (fun s p => readStr h s.1 (s.2.fill p)) (args, b)).map Prod.fst =
      (ps.map cString).foldlM h.readLine args := by
  induction ps generalizing args b with
  | nil => rfl
  | cons p ps ih =>
      obtain ⟨hp, hps⟩ := List.forall_mem_cons.mp hps
      rw [List.foldlM_cons, List.map_cons, List.foldlM_cons, ← readStr_fill args b hp]
      cases readStr h args (b.fill p) with
      | none => rfl
      | some s => exact ih hps s.1 s.2

end InPlace

theorem length_fgetsFrom {w : Text} (hw : w.length ≤ 126) (t : Text) :
    ∀ p ∈ fgetsFrom w t, p.length ≤ 127 := by
  induction t generalizing w with
  | nil =>
      intro p hp
      rw [fgetsFrom] at hp
      split at hp
      · cases hp
      · rw [List.mem_singleton.mp hp]
        omega
  | cons c t ih =>
      intro p hp
      rw [fgetsFrom] at hp
      split at hp
      · rcases List.mem_cons.mp hp with rfl | hp
        · rw [List.length_append, List.length_singleton]
          omega
        · exact ih (w := []) (Nat.zero_le 126) p hp
      · refine ih ?_ p hp
        rw [List.length_append, List.length_singleton]
        omega

/-- **The buffer**: where the program goes on, it has read the pieces as Config does. -/
theorem readConfig_eq (h : Daemon) (args : Settings) (b : Buffer 128) (text : Text) :
    (InPlace.readConfig h args b text).map Prod.fst =
      ((fgets text).map cString).foldlM h.readLine args :=
  InPlace.foldlM_readStr (length_fgetsFrom (w := []) (Nat.zero_le 126) text) args b

/-! ## Lines -/

/-- The lines of a file, each with its end, behind what is there of the first. -/
def linesFrom (line : Text) : Text → List Text
  | [] => if line = [] then [] else [line]
  | c :: t => if c = '\n' then (line ++ [c]) :: linesFrom [] t else linesFrom (line ++ [c]) t

def fileLines (text : Text) : List Text := linesFrom [] text

theorem fgets_linesFrom (line t : Text) :
    fgets (line ++ t) = (linesFrom line t).flatMap fgets := by
  induction t generalizing line with
  | nil =>
      rw [linesFrom, List.append_nil]
      split
      · rename_i hline
        rw [hline]
        rfl
      · rw [List.flatMap_singleton]
  | cons c t ih =>
      rw [linesFrom]
      split
      · rename_i hend
        subst hend
        rw [List.flatMap_cons, ← ih, List.nil_append]
        exact fgetsFrom_append [] line t
      · rw [← ih, List.append_assoc, List.singleton_append]

/-- **A file is read line by line.** -/
theorem fgets_lines (text : Text) : fgets text = (fileLines text).flatMap fgets :=
  fgets_linesFrom [] text

theorem mem_linesFrom {line t l : Text} (hline : '\n' ∉ line) (hl : l ∈ linesFrom line t) :
    ∃ u, '\n' ∉ u ∧ (l = u ∧ u ≠ [] ∨ l = u ++ ['\n']) := by
  induction t generalizing line with
  | nil =>
      rw [linesFrom] at hl
      split at hl
      · cases hl
      · rename_i hne
        rw [List.mem_singleton.mp hl]
        exact ⟨line, hline, .inl ⟨rfl, hne⟩⟩
  | cons c t ih =>
      rw [linesFrom] at hl
      split at hl
      · rename_i hend
        subst hend
        rcases List.mem_cons.mp hl with rfl | hl
        · exact ⟨line, hline, .inr rfl⟩
        · exact ih List.not_mem_nil hl
      · rename_i hc
        refine ih ?_ hl
        rw [List.mem_append, List.mem_singleton, not_or]
        exact ⟨hline, Ne.symm hc⟩

/-! ## Pieces as settings -/

/-- The option that a piece names. -/
def named (p : Text) : Option Opt :=
  if (read p).contains '=' then
    Opt.all.find? fun o => o.name = trim ((read p).takeWhile (· ≠ '='))
  else none

/-- What it sets the option to. -/
def given (p : Text) : Text := trim ((read p).dropWhile (· ≠ '=')).tail

/-- It is read to its end. -/
def Sound (p : Text) : Prop := (read p).all isSpace = true ∨ '=' ∈ read p

namespace Daemon

variable (h : Daemon)

/-- The settings behind a piece. -/
def assign (args : Settings) (p : Text) : Settings :=
  match named p with
  | none => args
  | some o => Function.update args o (h.convert o (given p))

variable {h}

theorem readLine_sound {p : Text} (hp : Sound p) (args : Settings) :
    h.readLine args (cString p) = some (h.assign args p) := by
  have hread : (cString p).takeWhile (· ≠ '#') = read p := rfl
  rw [readLine, hread, assign, named, given]
  by_cases hequal : '=' ∈ read p
  · have hall : ¬ (read p).all isSpace = true := fun hall =>
      absurd (List.all_eq_true.mp hall '=' hequal) (by decide)
    rw [if_neg hall, if_pos (List.contains_iff_mem.mpr hequal)]
    obtain ⟨u, v, huv, hu⟩ := List.eq_append_cons_of_mem hequal
    rw [huv, takeWhile_ne_append hu, dropWhile_ne_append hu]
    rfl
  · rw [if_pos (hp.resolve_right hequal), if_neg (mt List.contains_iff_mem.mp hequal)]

theorem readLine_not_sound {p : Text} (hp : ¬ Sound p) (args : Settings) :
    h.readLine args (cString p) = none := by
  have hread : (cString p).takeWhile (· ≠ '#') = read p := rfl
  rw [Sound, not_or] at hp
  rw [readLine, hread, if_neg hp.1, dropWhile_ne_nil hp.2]

theorem foldlM_readLine {ps : List Text} (hps : ∀ p ∈ ps, Sound p) (args : Settings) :
    (ps.map cString).foldlM h.readLine args = some (ps.foldl h.assign args) := by
  induction ps generalizing args with
  | nil => rfl
  | cons p ps ih =>
      obtain ⟨hp, hps⟩ := List.forall_mem_cons.mp hps
      rw [List.map_cons, List.foldlM_cons, readLine_sound hp, List.foldl_cons]
      exact ih hps _

/-- **The program goes on** through pieces that are blank or have their `=`, and through no
others. -/
theorem foldlM_readLine_isSome {ps : List Text} (args : Settings) :
    ((ps.map cString).foldlM h.readLine args).isSome = true ↔ ∀ p ∈ ps, Sound p := by
  refine ⟨fun hrun => ?_, fun hps => by rw [foldlM_readLine hps]; rfl⟩
  induction ps generalizing args with
  | nil => exact fun p hp => absurd hp List.not_mem_nil
  | cons p ps ih =>
      rw [List.map_cons, List.foldlM_cons] at hrun
      have hp : Sound p := by
        by_contra hp
        rw [readLine_not_sound hp] at hrun
        cases hrun
      rw [readLine_sound hp] at hrun
      exact List.forall_mem_cons.mpr ⟨hp, ih _ hrun⟩

theorem assign_of_ne {p : Text} {o : Opt} (hne : named p ≠ some o) (args : Settings) :
    h.assign args p o = args o := by
  rw [assign]
  cases hname : named p with
  | none => rfl
  | some o' => exact Function.update_of_ne (fun heq => hne (by rw [hname, heq])) _ _

theorem foldl_assign_of_ne {ps : List Text} {o : Opt} (hne : ∀ p ∈ ps, named p ≠ some o)
    (args : Settings) : ps.foldl h.assign args o = args o := by
  induction ps generalizing args with
  | nil => rfl
  | cons p ps ih =>
      obtain ⟨hp, hps⟩ := List.forall_mem_cons.mp hne
      rw [List.foldl_cons, ih hps, assign_of_ne hp]

/-- What pieces set an option to, whatever it was. -/
theorem foldl_assign_of_named {ps : List Text} {o : Opt} (hps : ∃ p ∈ ps, named p = some o) :
    ∃ v, ∀ args, ps.foldl h.assign args o = v := by
  induction ps with
  | nil =>
      obtain ⟨p, hp, -⟩ := hps
      exact absurd hp List.not_mem_nil
  | cons q ps ih =>
      by_cases hlater : ∃ p ∈ ps, named p = some o
      · obtain ⟨v, hv⟩ := ih hlater
        exact ⟨v, fun args => hv _⟩
      · have hrest : ∀ p ∈ ps, named p ≠ some o := fun p hp hname => hlater ⟨p, hp, hname⟩
        obtain ⟨p, hp, hname⟩ := hps
        have hq : named q = some o := by
          rcases List.mem_cons.mp hp with rfl | hp
          · exact hname
          · exact absurd hname (hrest p hp)
        refine ⟨h.convert o (given q), fun args => ?_⟩
        rw [List.foldl_cons, foldl_assign_of_ne hrest, assign, hq]
        exact Function.update_self o _ args

/-- Pieces leave every setting alone when they name none. -/
theorem foldl_assign_eq_self_iff {ps : List Text} :
    (∀ args, ps.foldl h.assign args = args) ↔ ∀ p ∈ ps, named p = none := by
  constructor
  · intro hsame p hp
    by_contra hname
    obtain ⟨o, ho⟩ := Option.ne_none_iff_exists'.mp hname
    obtain ⟨v, hv⟩ := foldl_assign_of_named (h := h) ⟨p, hp, ho⟩
    have hconst : ∀ w : Val, w = v := fun w => by
      rw [← hv fun _ => w, hsame]
    have hints : Val.int 0 = Val.int 1 := (hconst _).trans (hconst _).symm
    cases hints
  · intro hnone args
    funext o
    exact foldl_assign_of_ne (fun p hp => by rw [hnone p hp]; exact nofun) args

end Daemon

/-! ## Well-formed lines -/

/-- A value as it can be written. -/
inductive Written (v : Text) : Text → Prop where
  | bare (hhead : ∀ c ∈ v.head?, isSpace c = false) (hlast : ∀ c ∈ v.getLast?, isSpace c = false)
      (hquotes : ¬ (v.head? = some '"' ∧ v.getLast? = some '"')) : Written v v
  | quoted : Written v ('"' :: v ++ ['"'])

/-- `name = value`, with blanks, and with a comment or none. -/
structure Gives (o : Opt) (v l : Text) : Prop where
  parts : ∃ b₁ b₂ b₃ w b₄ comment,
    l = b₁ ++ o.name ++ b₂ ++ '=' :: (b₃ ++ w ++ b₄) ++ comment ∧
    (∀ b ∈ [b₁, b₂, b₃, b₄], ∀ c ∈ b, isSpace c = true) ∧
    Written v w ∧ '#' ∉ v ∧ nul ∉ v ∧ (comment = [] ∨ comment.head? = some '#')

theorem rdropWhile_blanks {t b : Text} (hb : ∀ c ∈ b, isSpace c = true) :
    (t ++ b).rdropWhile isSpace = t.rdropWhile isSpace := by
  induction b using List.reverseRecOn with
  | nil => rw [List.append_nil]
  | append_singleton b c ih =>
      rw [List.forall_mem_append] at hb
      have hc := hb.2 c (List.mem_singleton_self c)
      rw [← List.append_assoc, List.rdropWhile_concat_pos _ _ _ hc, ih hb.1]

/-- Blanks around a text that has none at its ends are stripped. -/
theorem strip_blanks {b w b' : Text} (hb : ∀ c ∈ b, isSpace c = true)
    (hb' : ∀ c ∈ b', isSpace c = true) (hhead : ∀ c ∈ w.head?, isSpace c = false)
    (hlast : ∀ c ∈ w.getLast?, isSpace c = false) :
    ((b ++ w ++ b').dropWhile isSpace).rdropWhile isSpace = w := by
  have hend : w.rdropWhile isSpace = w := by
    rw [List.rdropWhile_eq_self_iff]
    intro hne hspace
    rw [hlast _ (List.getLast?_eq_some_getLast hne)] at hspace
    cases hspace
  cases w with
  | nil =>
      have hall : (b ++ [] ++ b').dropWhile isSpace = [] := by
        refine List.dropWhile_eq_nil_iff.mpr fun c hc => ?_
        rw [List.append_nil] at hc
        exact (List.mem_append.mp hc).elim (hb c) (hb' c)
      rw [hall]
      rfl
  | cons a w =>
      have ha : ¬ isSpace a = true := by
        rw [hhead a rfl]
        exact Bool.false_ne_true
      rw [List.append_assoc, List.dropWhile_append_of_pos hb, List.cons_append,
        List.dropWhile_cons_of_neg ha, ← List.cons_append, rdropWhile_blanks hb', hend]

theorem trim_blanks {b w b' v : Text} (hb : ∀ c ∈ b, isSpace c = true)
    (hb' : ∀ c ∈ b', isSpace c = true) (hw : Written v w) : trim (b ++ w ++ b') = v := by
  cases hw with
  | bare hhead hlast hquotes =>
      rw [trim, strip_blanks hb hb' hhead hlast]
      exact if_neg hquotes
  | quoted =>
      have hlast : ('"' :: v ++ ['"']).getLast? = some '"' := List.getLast?_concat
      rw [trim, strip_blanks hb hb' (fun c hc => by cases hc; decide)
        (fun c hc => by rw [hlast] at hc; cases hc; decide), if_pos ⟨rfl, hlast⟩]
      exact List.dropLast_concat

theorem name_nul (o : Opt) : o.name.all (· != nul) = true := by
  cases o <;> decide +kernel

/-- A name is written as it is. -/
theorem written_name (o : Opt) : Written o.name o.name := by
  have hall := List.all_eq_true.mp (name_chars o).1
  have hspace : ∀ c ∈ o.name, isSpace c = false := fun c hc => by
    have hc' := hall c hc
    simp only [Bool.and_eq_true, Bool.not_eq_true'] at hc'
    exact hc'.1.1.1.1
  refine .bare (fun c hc => hspace c (List.mem_of_mem_head? hc))
    (fun c hc => hspace c (List.mem_of_mem_getLast? hc)) fun h => ?_
  exact absurd (hall '"' (List.mem_of_mem_head? h.1)) (by decide)

theorem read_append {t r : Text} (hnul : nul ∉ t) (hhash : '#' ∉ t)
    (hr : r = [] ∨ r.head? = some '#') : read (t ++ r) = t := by
  have hne : ∀ c ∈ t, decide (c ≠ '\x00') = true := fun c hc =>
    decide_eq_true fun (heq : c = nul) => hnul (heq ▸ hc)
  cases r with
  | nil =>
      have hself : cString t = t := takeWhile_ne_self hnul
      rw [List.append_nil, read, hself]
      exact takeWhile_ne_self hhash
  | cons c r =>
      obtain rfl : c = '#' := Option.some.inj (hr.resolve_left (List.cons_ne_nil c r))
      have hcut : cString (t ++ '#' :: r) = t ++ '#' :: cString r := by
        rw [cString, List.takeWhile_append_of_pos hne, List.takeWhile_cons_of_pos (by decide)]
        rfl
      rw [read, hcut]
      exact takeWhile_ne_append hhash

theorem notMem_blanks {b : Text} {c : Char} (hb : ∀ c ∈ b, isSpace c = true)
    (hc : isSpace c = false) : c ∉ b := fun h => by
  rw [hb c h] at hc
  cases hc

theorem Written.notMem {v w : Text} {c : Char} (hw : Written v w) (hv : c ∉ v) (hc : c ≠ '"') :
    c ∉ w := by
  cases hw with
  | bare => exact hv
  | quoted =>
      intro h
      rcases List.mem_append.mp h with h | h
      · rcases List.mem_cons.mp h with h | h
        · exact hc h
        · exact hv h
      · exact hc (List.mem_singleton.mp h)

namespace Gives

variable {o : Opt} {v l : Text}

/-- A line as a piece. -/
theorem piece (hl : Gives o v l) : Sound l ∧ named l = some o ∧ given l = v := by
  obtain ⟨b₁, b₂, b₃, w, b₄, comment, rfl, hblank, hw, hhash, hnul, hcomment⟩ := hl.parts
  simp only [List.forall_mem_cons] at hblank
  obtain ⟨hb₁, hb₂, hb₃, hb₄, -⟩ := hblank
  have hname : ∀ c, c ∉ o.name → isSpace c = false → c ∉ b₁ ++ o.name ++ b₂ := fun c hc hs => by
    rw [List.mem_append, List.mem_append, not_or, not_or]
    exact ⟨⟨notMem_blanks hb₁ hs, hc⟩, notMem_blanks hb₂ hs⟩
  have hvalue : ∀ c, c ∉ v → c ≠ '"' → isSpace c = false → c ∉ b₃ ++ w ++ b₄ := fun c hc hq hs => by
    rw [List.mem_append, List.mem_append, not_or, not_or]
    exact ⟨⟨notMem_blanks hb₃ hs, hw.notMem hc hq⟩, notMem_blanks hb₄ hs⟩
  have hline : ∀ c, c ∉ o.name → c ∉ v → c ≠ '"' → c ≠ '=' → isSpace c = false →
      c ∉ b₁ ++ o.name ++ b₂ ++ '=' :: (b₃ ++ w ++ b₄) := fun c hn hv hq he hs => by
    rw [List.mem_append, List.mem_cons, not_or, not_or]
    exact ⟨hname c hn hs, he, hvalue c hv hq hs⟩
  obtain ⟨hequalName, hhashName, -⟩ := name_notMem o
  have hnulName : nul ∉ o.name := fun h =>
    absurd (List.all_eq_true.mp (name_nul o) nul h) (by decide)
  have hread := read_append (hline nul hnulName hnul (by decide) (by decide) (by decide))
    (hline '#' hhashName hhash (by decide) (by decide) (by decide)) hcomment
  have hequal : '=' ∈ b₁ ++ o.name ++ b₂ ++ '=' :: (b₃ ++ w ++ b₄) :=
    List.mem_append_right _ List.mem_cons_self
  have hequalLeft := hname '=' hequalName (by decide)
  refine ⟨.inr (by rw [hread]; exact hequal), ?_, ?_⟩
  · rw [named, hread, if_pos (List.contains_iff_mem.mpr hequal), takeWhile_ne_append hequalLeft,
      trim_blanks hb₁ hb₂ (written_name o)]
    exact (name_chars o).2.2.2.1
  · rw [given, hread, dropWhile_ne_append hequalLeft, List.tail_cons, trim_blanks hb₃ hb₄ hw]

theorem newline (hl : Gives o v l) : Gives o v (l ++ ['\n']) := by
  obtain ⟨b₁, b₂, b₃, w, b₄, comment, rfl, hblank, hw, hhash, hnul, hcomment⟩ := hl.parts
  cases comment with
  | nil =>
      refine ⟨b₁, b₂, b₃, w, b₄ ++ ['\n'], [], by simp, ?_, hw, hhash, hnul, .inl rfl⟩
      simp only [List.forall_mem_cons] at hblank ⊢
      obtain ⟨hb₁, hb₂, hb₃, hb₄, -⟩ := hblank
      refine ⟨hb₁, hb₂, hb₃, ?_, nofun⟩
      rw [List.forall_mem_append]
      exact ⟨hb₄, fun c hc => by rw [List.mem_singleton.mp hc]; decide⟩
  | cons c comment =>
      refine ⟨b₁, b₂, b₃, w, b₄, c :: comment ++ ['\n'], by simp, hblank, hw, hhash, hnul, .inr ?_⟩
      exact hcomment.resolve_left (List.cons_ne_nil c comment)

end Gives

/-- A line that fits is read as one piece. -/
theorem fgetsFrom_whole {line u e : Text} (hu : '\n' ∉ u) (he : e = [] ∨ e = ['\n'])
    (hlen : (line ++ u ++ e).length ≤ 127) (hne : line ++ u ++ e ≠ []) :
    fgetsFrom line (u ++ e) = [line ++ u ++ e] := by
  induction u generalizing line with
  | nil =>
      rw [List.append_nil] at hne ⊢
      rcases he with rfl | rfl
      · rw [List.append_nil] at hne ⊢
        rw [fgetsFrom, if_neg hne, List.append_nil]
      · exact if_pos (.inl rfl)
  | cons c u ih =>
      rw [List.mem_cons, not_or] at hu
      have hshift : line ++ c :: u ++ e = line ++ [c] ++ u ++ e := by
        rw [List.append_cons]
      rw [hshift] at hlen hne ⊢
      rw [List.cons_append, fgetsFrom]
      split
      · rename_i hfull
        have hline : line.length = 126 := hfull.resolve_left (Ne.symm hu.1)
        simp only [List.length_append, List.length_singleton] at hlen
        have hu' : u = [] := List.length_eq_zero_iff.mp (by omega)
        have he' : e = [] := List.length_eq_zero_iff.mp (by omega)
        rw [hu', he', List.append_nil, List.append_nil, List.append_nil]
        rfl
      · exact ih hu.2 hlen hne

/-- A line without its end. -/
def chomp (l : Text) : Text := l.takeWhile (· ≠ '\n')

theorem chomp_line {text l : Text} (hl : l ∈ fileLines text) :
    '\n' ∉ chomp l ∧ l ≠ [] ∧ (l = chomp l ∨ l = chomp l ++ ['\n']) := by
  obtain ⟨u, hu, ⟨rfl, hne⟩ | rfl⟩ := mem_linesFrom List.not_mem_nil hl
  · have hchomp : chomp l = l := takeWhile_ne_self hu
    rw [hchomp]
    exact ⟨hu, hne, .inl rfl⟩
  · have hchomp : chomp (u ++ ['\n']) = u := takeWhile_ne_append hu
    rw [hchomp]
    exact ⟨hu, by simp, .inr rfl⟩

theorem fgets_line {text l : Text} (hl : l ∈ fileLines text) (hlen : (chomp l).length < 127) :
    fgets l = [l] := by
  obtain ⟨hend, hne, hl'⟩ := chomp_line hl
  have hwhole : ∀ e : Text, e = [] ∨ e = ['\n'] → l = chomp l ++ e → fgets l = [l] := by
    intro e he heq
    have hshort : ([] ++ chomp l ++ e).length ≤ 127 := by
      have hone : e.length ≤ 1 := by
        rcases he with rfl | rfl
        · exact Nat.zero_le 1
        · exact le_rfl
      rw [List.nil_append, List.length_append]
      omega
    have hread := fgetsFrom_whole hend he hshort (by rw [List.nil_append, ← heq]; exact hne)
    rw [List.nil_append, ← heq] at hread
    exact hread
  rcases hl' with hl' | hl'
  · exact hwhole [] (.inl rfl) (hl'.trans (List.append_nil _).symm)
  · exact hwhole ['\n'] (.inr rfl) hl'

/-! ## Every file -/

/-- `read_config` copes with a file: it comes to its end, whatever the settings were and whatever
was in the buffer; what has no `=` in front of its comment changes nothing, and what gives a value
to an option sets this option alone. -/
structure Copes (h : Daemon) (text : Text) : Prop where
  ends : ∀ args b, (InPlace.readConfig h args b text).isSome = true
  ignores : ∀ l ∈ fileLines text, '=' ∉ l.takeWhile (· ≠ '#') → ∀ args b,
    (InPlace.readConfig h args b l).map Prod.fst = some args
  sets : ∀ l ∈ fileLines text, ∀ o v, Gives o v (chomp l) → (chomp l).length < 127 → ∀ args b,
    (InPlace.readConfig h args b l).map Prod.fst = some (Function.update args o (h.convert o v))

/-- Of the pieces of at most 127 bytes, each is blank or has an `=` in front of its comment; and no
part of a comment names an option. -/
structure Readable (text : Text) : Prop where
  sound : ∀ p ∈ fgets text, Sound p
  silent : ∀ l ∈ fileLines text, '=' ∉ l.takeWhile (· ≠ '#') → ∀ p ∈ fgets l, named p = none

variable {h : Daemon}

theorem readConfig_isSome_iff {text : Text} (args : Settings) (b : Buffer 128) :
    (InPlace.readConfig h args b text).isSome = true ↔ ∀ p ∈ fgets text, Sound p := by
  rw [← Daemon.foldlM_readLine_isSome (h := h) args, ← readConfig_eq h args b,
    Option.isSome_map]

theorem readConfig_of_sound {text : Text} (hsound : ∀ p ∈ fgets text, Sound p) (args : Settings)
    (b : Buffer 128) : (InPlace.readConfig h args b text).map Prod.fst =
      some ((fgets text).foldl h.assign args) :=
  (readConfig_eq h args b text).trans (Daemon.foldlM_readLine hsound args)

/-- **A line** that gives a value sets it, and nothing else. -/
theorem readConfig_gives {text l v : Text} {o : Opt} (hl : l ∈ fileLines text)
    (hgives : Gives o v (chomp l)) (hlen : (chomp l).length < 127) (args : Settings)
    (b : Buffer 128) : (InPlace.readConfig h args b l).map Prod.fst =
      some (Function.update args o (h.convert o v)) := by
  have hgives' : Gives o v l := by
    obtain ⟨-, -, hl' | hl'⟩ := chomp_line hl
    · rw [hl']
      exact hgives
    · rw [hl']
      exact hgives.newline
  obtain ⟨hsound, hname, hgiven⟩ := hgives'.piece
  have hone := fgets_line hl hlen
  have hall : ∀ p ∈ fgets l, Sound p := fun p hp => by
    rw [hone, List.mem_singleton] at hp
    rw [hp]
    exact hsound
  rw [readConfig_of_sound hall, hone, List.foldl_cons, List.foldl_nil, Daemon.assign, hname, hgiven]

/-- The program copes with a file when, and only when, no piece of it is text without `=`, and no
comment is so long that a later piece of it names an option. -/
theorem copes_iff (h : Daemon) (text : Text) : Copes h text ↔ Readable text := by
  constructor
  · intro hcopes
    have hargs : Settings := fun _ => .int 0
    have hbuffer : Buffer 128 := ⟨List.replicate 128 nul, List.length_replicate⟩
    have hsound := (readConfig_isSome_iff hargs hbuffer).mp (hcopes.ends hargs hbuffer)
    refine ⟨hsound, fun l hl hequal => ?_⟩
    have hpieces : ∀ p ∈ fgets l, Sound p := fun p hp => hsound p (by
      rw [fgets_lines]
      exact List.mem_flatMap.mpr ⟨l, hl, hp⟩)
    refine (Daemon.foldl_assign_eq_self_iff (h := h)).mp fun args => ?_
    have hsame := hcopes.ignores l hl hequal args hbuffer
    rw [readConfig_of_sound hpieces] at hsame
    exact Option.some.inj hsame
  · intro hread
    refine ⟨fun args b => (readConfig_isSome_iff args b).mpr hread.sound, ?_, ?_⟩
    · intro l hl hequal args b
      have hpieces : ∀ p ∈ fgets l, Sound p := fun p hp => hread.sound p (by
        rw [fgets_lines]
        exact List.mem_flatMap.mpr ⟨l, hl, hp⟩)
      rw [readConfig_of_sound hpieces,
        Daemon.foldl_assign_eq_self_iff.mpr (hread.silent l hl hequal)]
    · exact fun l hl o v hgives hlen args b => readConfig_gives hl hgives hlen args b

def someDaemon : Daemon := ⟨fun _ => 0, fun _ => true⟩

/-- A word that is alone on its line ends the program. -/
theorem word_not_copes : ¬ Copes someDaemon "mail\n".toList := by
  intro hcopes
  have hends := hcopes.ends (fun _ => .int 0) ⟨List.replicate 128 nul, List.length_replicate⟩
  rw [readConfig_isSome_iff] at hends
  have hsound := hends "mail\n".toList (by decide)
  rw [Sound] at hsound
  exact absurd hsound (by decide)

end AltF.Sysctrl
