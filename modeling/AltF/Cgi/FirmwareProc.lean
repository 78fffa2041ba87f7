/-
  Cgi/FirmwareProc.lean --- firmware_proc.cgi: what it evaluates of the output of
  dns323-fw, and when it offers to flash.

  Each word of the output with a semicolon in it is evaluated.  The six assignments
  at its beginning are such words; the names in an extension header are bytes of
  the uploaded file, and may be.
-/
import Mathlib.Data.List.Induction
import AltF.Firmware.Info
import AltF.Firmware.RoundTrip
import AltF.Shell.Eval
import AltF.Shell.Words

set_option autoImplicit false

namespace AltF.Cgi

open AltF.Foundation AltF.Firmware AltF.Shell AltF.SysFiles

/-! ## The evaluated words -/

/-- `grep -q ';'` -/
def hasSemicolon (w : Text) : Bool := w.contains ';'

/-- The arguments of `eval` in the loop over `$res`.  `echo $i` expands the word once
more. -/
def evalArgs (glob : Text → List Text) (res : Text) : List Text :=
  (expand glob res).filter fun i => (expand glob i).any hasSemicolon

/-- A character that neither expands nor gets a word evaluated. -/
def tame (c : Char) : Bool := c != ';' && !isPattern c

/-- A word that is evaluated as it stands. -/
structure Solid (w : Text) : Prop where
  ne_nil : w ≠ []
  blank : ∀ c ∈ w, isBlank c = false
  pattern : ∀ c ∈ w, isPattern c = false
  semicolon : ';' ∈ w

section EvalArgs

variable {glob : Text → List Text}

theorem evalArgs_append_cons (glob : Text → List Text) (t u : Text) {c : Char}
    (hc : isBlank c = true) :
    evalArgs glob (t ++ c :: u) = evalArgs glob t ++ evalArgs glob u := by
  rw [evalArgs, expand_append_cons glob t u hc, List.filter_append, evalArgs, evalArgs]

/-- Nothing of a tame text is evaluated. -/
theorem evalArgs_of_tame (hglob : Globs glob) {t : Text} (ht : t.all tame = true) :
    evalArgs glob t = [] := by
  have htame : ∀ c ∈ t, c ≠ ';' ∧ isPattern c = false := by
    intro c hc
    have hc' := List.all_eq_true.mp ht c hc
    rw [tame, Bool.and_eq_true, bne_iff_ne, Bool.not_eq_true'] at hc'
    exact hc'
  rw [evalArgs, List.filter_eq_nil_iff, expand_of_plain hglob fun c hc => (htame c hc).2]
  intro i hi hany
  rw [expand_of_plain hglob fun c hc => (htame c (mem_of_mem_words hi hc)).2,
    List.any_eq_true] at hany
  obtain ⟨w, hw, hsemicolon⟩ := hany
  have hmem : ';' ∈ w := by simpa [hasSemicolon] using hsemicolon
  exact (htame ';' (mem_of_mem_words hi (mem_of_mem_words hw hmem))).1 rfl

/-- A solid word in front of a blank is evaluated. -/
theorem evalArgs_solid (hglob : Globs glob) {w : Text} (hw : Solid w) : evalArgs glob w = [w] := by
  have hexpand : expand glob w = [w] := by
    rw [expand_of_plain hglob hw.pattern, words_eq_singleton hw.ne_nil hw.blank]
  have hany : [w].any hasSemicolon = true := by simpa [hasSemicolon] using hw.semicolon
  rw [evalArgs, hexpand, List.filter_cons_of_pos (by rw [hexpand, hany]), List.filter_nil]

/-- Solid words, one on each line, are all evaluated. -/
theorem evalArgs_lines (hglob : Globs glob) {ws : List Text} (hws : ∀ w ∈ ws, Solid w) (t : Text) :
    evalArgs glob (ws.flatMap (· ++ ['\n']) ++ t) = ws ++ evalArgs glob t := by
  induction ws with
  | nil => rfl
  | cons w ws ih =>
      have hsplit : (w :: ws).flatMap (· ++ ['\n']) ++ t =
          w ++ '\n' :: (ws.flatMap (· ++ ['\n']) ++ t) := by simp
      rw [hsplit, evalArgs_append_cons glob _ _ rfl,
        evalArgs_solid hglob (hws w List.mem_cons_self),
        ih fun v hv => hws v (List.mem_cons_of_mem w hv)]
      rfl

/-- The newlines at the end of the output do not matter. -/
theorem evalArgs_commandSubst (glob : Text → List Text) (out : Text) :
    evalArgs glob (commandSubst out) = evalArgs glob out := by
  rw [commandSubst]
  induction out using List.reverseRecOn with
  | nil => rfl
  | append_singleton out c ih =>
      by_cases hc : c = '\n'
      · have hlast : evalArgs glob (out ++ ['\n']) = evalArgs glob out := by
          rw [evalArgs_append_cons glob out [] rfl]
          exact List.append_nil _
        subst hc
        rw [List.rdropWhile_concat_pos _ _ _ (by decide), ih, hlast]
      · rw [List.rdropWhile_concat_neg _ _ _ (by simpa using hc)]

end EvalArgs

/-! ## The output of dns323-fw -/

/-- `dns323-fw -s`: the files it makes and what it prints, when it succeeds. -/
def dns323fw (stack : SplitStack) (istack : InfoStack) (fw : Bytes) :
    Except Failure (SplitFiles × Text) :=
  match openRead stack.myhd fw with
  | .error e => .error e
  | .ok hd => (split stack fw).map fun files => (files, splitOutput istack fw hd)

/-- One of the six assignments of the recognised header: an id byte in hex digits,
or the signature's text from the table. -/
inductive Expected (hd : MyControlHeader) : Text → Prop
  | id (name : Text) (b : UInt8) (h : (name, b) ∈ ids hd)
      (hhex : ∀ c ∈ hexText b, isHexDigit c = true) : Expected hd (assignment name (hexText b))
  | signature : Expected hd (assignment "signature".toList ('"' :: sigText hd.sigNum ++ ['"']))

theorem expected_iff_mem (hd : MyControlHeader) (i : Text) :
    Expected hd i ↔ i ∈ assignments hd := by
  rw [assignments, List.mem_append, List.mem_map, List.mem_singleton]
  constructor
  · intro h
    cases h with
    | id name b h _ => exact .inl ⟨(name, b), h, rfl⟩
    | signature => exact .inr rfl
  · rintro (⟨⟨name, b⟩, h, rfl⟩ | rfl)
    · exact .id name b h (isHexDigit_hexText b)
    · exact .signature

/-- An assignment of solid characters is a solid word. -/
theorem solid_assignment {name value : Text} (hname : name.all solidChar = true)
    (hvalue : value.all solidChar = true) : Solid (assignment name value) := by
  have hall : (assignment name value).all solidChar = true := by
    rw [assignment, List.all_append, List.all_append, List.all_cons, hname, hvalue]
    decide
  have hchar := fun c hc => (solidChar_iff c).mp (List.all_eq_true.mp hall c hc)
  refine ⟨?_, fun c hc => (hchar c hc).1, fun c hc => (hchar c hc).2, ?_⟩
  · rw [assignment]
    simp
  · rw [assignment]
    simp

theorem solid_hexText (b : UInt8) : (hexText b).all solidChar = true := by
  have hdigits : "0123456789abcdef".toList.all solidChar = true := by decide
  rw [List.all_eq_true]
  intro c hc
  have hhex := isHexDigit_hexText b c hc
  exact List.all_eq_true.mp hdigits c (by simpa [isHexDigit] using hhex)

theorem solid_sigText (t : SigNum) : ('"' :: sigText t ++ ['"']).all solidChar = true := by
  revert t
  decide +kernel

theorem solid_assignments (hd : MyControlHeader) : ∀ w ∈ assignments hd, Solid w := by
  have hnames : ((ids hd).map Prod.fst).all (List.all · solidChar) = true := by
    change ["product_id".toList, "custom_id".toList, "model_id".toList, "sub_id".toList,
      "NewVersion".toList].all (List.all · solidChar) = true
    decide
  intro w hw
  rw [assignments, List.mem_append, List.mem_map, List.mem_singleton] at hw
  rcases hw with ⟨x, hx, rfl⟩ | rfl
  · exact solid_assignment (List.all_eq_true.mp hnames x.1 (List.mem_map_of_mem hx))
      (solid_hexText x.2)
  · exact solid_assignment (by decide) (solid_sigText hd.sigNum)

/-! ## The tame part of the output -/

theorem tame_decText (n : Nat) : (decText n).all tame = true := by
  rw [List.all_eq_true]
  intro c hc
  have hdigit := isDigit_decText n c hc
  have hne : ∀ d, d.isDigit = false → c ≠ d := by
    intro d hd hcd
    rw [hcd, hd] at hdigit
    cases hdigit
  rw [tame, isPattern]
  simp [hne ';' (by decide), hne '*' (by decide), hne '?' (by decide), hne '[' (by decide),
    hne '\\' (by decide)]

theorem tame_sigText (t : SigNum) : (sigText t).all tame = true := by
  revert t
  decide +kernel

theorem tame_regionLine {names : List Text} (hnames : ∀ n ∈ names, n.all tame = true)
    (r : Region) : (regionLine names r).all tame = true := by
  rw [regionLine, List.all_append, Bool.and_eq_true]
  refine ⟨?_, by decide⟩
  rw [List.all_flatMap, List.all_eq_true]
  intro x hx
  have hfirst := hnames x.1 (List.of_mem_zip hx).1
  have hsecond : x.2.all tame = true := by
    have hmem := (List.of_mem_zip hx).2
    simp only [List.mem_cons, List.not_mem_nil, or_false] at hmem
    rcases hmem with h | h | h | h | h <;> rw [h] <;> exact tame_decText _
  rw [List.all_append, hfirst, hsecond]
  rfl

theorem tame_regionLines (stack : InfoStack) (hd : MyControlHeader) :
    (regionLines stack hd).all tame = true := by
  unfold regionLines
  simp only [List.all_append, Bool.and_eq_true, tame_decText, and_true]
  refine ⟨⟨⟨⟨⟨⟨⟨⟨⟨⟨?_, ?_⟩, ?_⟩, ?_⟩, ?_⟩, ?_⟩, ?_⟩, ?_⟩, ?_⟩, ?_⟩, ?_⟩
  · decide
  · decide
  · decide
  · decide
  · exact tame_regionLine (by decide) hd.kernel
  · exact tame_regionLine (by decide) hd.initramfs
  · split
    · exact tame_regionLine (by decide) hd.sqimage
    · rfl
  · exact tame_regionLine (by decide) hd.defaults
  · decide
  · decide
  · decide

theorem tame_savedLines (hd : MyControlHeader) : (savedLines hd).all tame = true := by
  unfold savedLines savedLine
  simp only [List.all_append, Bool.and_eq_true, tame_sigText, and_true]
  refine ⟨⟨⟨⟨⟨⟨?_, ?_⟩, ?_⟩, ?_⟩, ?_⟩, ?_⟩, ?_⟩
  · split <;> decide
  · decide
  · decide
  · decide
  · decide
  · split <;> decide
  · decide

/-- **What is evaluated**: the six assignments, and what there is in the names of an
extension header. -/
theorem evalArgs_splitOutput {glob : Text → List Text} (hglob : Globs glob) (istack : InfoStack)
    (fw : Bytes) (hd : MyControlHeader) :
    evalArgs glob (commandSubst (splitOutput istack fw hd)) =
      assignments hd ++
        if hd.nextOffset ≠ 0 then
          evalArgs glob (extendNames (readExtendHeader istack.ehd fw hd.nextOffset.toNat))
        else [] := by
  have hregion := tame_regionLines istack hd
  have hsaved := tame_savedLines hd
  unfold splitOutput printInfo
  rw [evalArgs_commandSubst, List.append_assoc, List.append_assoc,
    evalArgs_lines hglob (solid_assignments hd)]
  refine congrArg (fun l => assignments hd ++ l) ?_
  by_cases hnext : hd.nextOffset ≠ 0
  · unfold extendLines
    rw [if_pos hnext, if_pos hnext]
    generalize readExtendHeader istack.ehd fw hd.nextOffset.toNat = ehd
    have hahead : (regionLines istack hd ++ ("Next header at ".toList ++
        decText hd.nextOffset.toNat ++ ":".toList)).all tame = true := by
      simp only [List.all_append, Bool.and_eq_true, tame_decText, hregion, true_and, and_true]
      decide
    have hbehind : (("\toff=".toList ++ decText ehd.offset.toNat ++ " len=".toList ++
        decText ehd.len.toNat ++ " checksum=".toList ++ decText ehd.checksum.toNat ++
        " next_offset=".toList ++ decText ehd.nextOffset.toNat ++ "\n".toList) ++
        savedLines hd).all tame = true := by
      simp only [List.all_append, Bool.and_eq_true, tame_decText, hsaved, and_true]
      decide
    have hsplit : ∀ r a b c d : Text, r ++ ((a ++ ' ' :: b ++ '\n' :: c) ++ d) =
        (r ++ a) ++ ' ' :: (b ++ '\n' :: (c ++ d)) := by
      intro r a b c d
      simp
    rw [hsplit, evalArgs_append_cons glob _ _ rfl, evalArgs_append_cons glob _ _ rfl,
      evalArgs_of_tame hglob hahead, evalArgs_of_tame hglob hbehind, List.nil_append,
      List.append_nil]
  · unfold extendLines
    rw [if_neg hnext, if_neg hnext]
    refine evalArgs_of_tame hglob ?_
    rw [List.all_append, hregion, List.nil_append, hsaved]
    rfl

/-! ## A file of the DNS-323 -/

/-- A header with FrodoII's signature and empty components. -/
def frodoHeader (product custom model sub : UInt8) (next : UInt32) : MyControlHeader :=
  { kernel := ⟨64, 0, 0⟩, initramfs := ⟨64, 0, 0⟩, sqimage := ⟨0, 0, 0⟩, defaults := ⟨64, 0, 0⟩
    nextOffset := next, productId := product, customId := custom, modelId := model
    subId := sub, newVersion := 4, type := 64, sigNum := 0 }

/-- The file of such a header: the uboot magic and 60 zeros stand behind it. -/
def frodoFile (hd : MyControlHeader) (rest : Bytes) : Bytes :=
  setHeader64 hd ++ (ubootSig ++ List.replicate 60 0) ++ rest

section Frodo

variable (product custom model sub : UInt8) (next : UInt32) (rest : Bytes)

theorem length_frodoFile (hd : MyControlHeader) :
    (frodoFile hd rest).length = 128 + rest.length := by
  unfold frodoFile
  rw [List.length_append, List.length_append, setHeader64_length]
  rfl

theorem openRead_frodoFile :
    openRead SplitStack.zero.myhd (frodoFile (frodoHeader product custom model sub next) rest) =
      .ok (frodoHeader product custom model sub next) := by
  refine openRead_of_checkSig (by rw [length_frodoFile]; omega) ?_
  have htake : ∀ hd, (frodoFile hd rest).take 128 =
      setHeader64 hd ++ (ubootSig ++ List.replicate 60 0) := by
    intro hd
    unfold frodoFile
    refine List.take_left' ?_
    rw [List.length_append, setHeader64_length]
    rfl
  rw [htake, checkSig_setHeader64 _ _ rfl]
  rfl

/-- The file passes: its components are empty and begin with the uboot magic. -/
theorem dns323fw_frodoFile (istack : InfoStack) :
    dns323fw .zero istack (frodoFile (frodoHeader product custom model sub next) rest) =
      .ok (⟨[], [], none, []⟩, splitOutput istack
        (frodoFile (frodoHeader product custom model sub next) rest)
        (frodoHeader product custom model sub next)) := by
  let hd := frodoHeader product custom model sub next
  have hlen := length_frodoFile rest hd
  have hempty : ∀ off : UInt32, off.toNat ≤ 128 →
      (⟨off, 0, 0⟩ : Region).Inside (frodoFile hd rest) := by
    intro off hoff
    rw [Region.Inside, hlen]
    exact Nat.le_trans hoff (Nat.le_add_right _ _)
  have hboot : isUboot (fun _ => 0) (frodoFile hd rest) 64 = true := by
    have hslice : slice (frodoFile hd rest) 64 4 = ubootSig := by
      unfold frodoFile slice
      rw [List.append_assoc, List.drop_left' (setHeader64_length hd)]
      rfl
    rw [isUboot_full _ (by omega), hslice]
    rfl
  have hlayout : hd.type ≠ 128 := by
    change 64 ≠ 128
    decide
  have hsplit : split .zero (frodoFile hd rest) = .ok ⟨[], [], none, []⟩ := by
    refine (split_ok_iff (openRead_frodoFile product custom model sub next rest)
      ⟨hempty 64 (by decide), hempty 64 (by decide), fun h => absurd h hlayout,
        hempty 64 (by decide)⟩).mpr
      ⟨hboot, hboot, ⟨.inl rfl, .inl rfl, fun h => absurd h hlayout, .inl rfl⟩, ?_⟩
    unfold regionFiles Region.content slice
    simp [frodoHeader]
  unfold dns323fw
  rw [openRead_frodoFile, hsplit]
  rfl

end Frodo

/-! ## The main result -/

/-- The output of a run that succeeds. -/
theorem output_eq {stack : SplitStack} {istack : InfoStack} {fw : Bytes} {hd : MyControlHeader}
    (hread : openRead stack.myhd fw = .ok hd) {files : SplitFiles} {out : Text}
    (hrun : dns323fw stack istack fw = .ok (files, out)) : out = splitOutput istack fw hd := by
  simp only [dns323fw, hread] at hrun
  cases hsplit : split stack fw with
  | error e =>
      rw [hsplit] at hrun
      cases hrun
  | ok files' =>
      rw [hsplit] at hrun
      cases hrun
      rfl

/-- **Inspecting a firmware file** evaluates the six assignments and nothing else if
and only if the names in an extension header have no other word with a semicolon. -/
theorem evaluated_expected_iff {glob : Text → List Text} (hglob : Globs glob)
    (stack : SplitStack) (istack : InfoStack) (fw : Bytes) {hd : MyControlHeader}
    (hread : openRead stack.myhd fw = .ok hd) {files : SplitFiles} {out : Text}
    (hrun : dns323fw stack istack fw = .ok (files, out)) :
    (∀ i ∈ evalArgs glob (commandSubst out), Expected hd i) ↔
      (hd.nextOffset ≠ 0 →
        ∀ i ∈ evalArgs glob (extendNames (readExtendHeader istack.ehd fw hd.nextOffset.toNat)),
          Expected hd i) := by
  rw [output_eq hread hrun, evalArgs_splitOutput hglob]
  by_cases hnext : hd.nextOffset ≠ 0
  · rw [if_pos hnext]
    constructor
    · exact fun h _ i hi => h i (List.mem_append_right _ hi)
    · intro h i hi
      rcases List.mem_append.mp hi with hi | hi
      · exact (expected_iff_mem hd i).mpr hi
      · exact h hnext i hi
  · rw [if_neg hnext, List.append_nil]
    exact ⟨fun _ h => absurd h hnext, fun _ i hi => (expected_iff_mem hd i).mpr hi⟩

/-- What is evaluated of a file without an extension header. -/
def frodoArgs : List Text :=
  evalArgs noFiles (commandSubst (splitOutput .zero (frodoFile (frodoHeader 7 1 1 1 0) [])
    (frodoHeader 7 1 1 1 0)))

theorem evaluated_frodoFile :
    frodoArgs.length = 6 ∧ ∀ i ∈ frodoArgs, Expected (frodoHeader 7 1 1 1 0) i := by
  refine ⟨?_, (evaluated_expected_iff globs_noFiles .zero .zero
    (frodoFile (frodoHeader 7 1 1 1 0) []) (openRead_frodoFile 7 1 1 1 0 [])
    (dns323fw_frodoFile 7 1 1 1 0 [] .zero)).mpr fun hnext => absurd rfl hnext⟩
  have hnext : ¬ (frodoHeader 7 1 1 1 0).nextOffset ≠ 0 := not_not_intro rfl
  rw [frodoArgs, evalArgs_splitOutput globs_noFiles, if_neg hnext, List.append_nil]
  rfl

/-- An extension header whose directory is a command. -/
def commandNames : Bytes := ascii "a;reboot".toList ++ List.replicate 88 0

/-- A directory `a;reboot` is run. -/
theorem not_evaluated_expected :
    ¬ ∀ (glob : Text → List Text) (stack : SplitStack) (istack : InfoStack) (fw : Bytes)
      (hd : MyControlHeader) (files : SplitFiles) (out : Text), Globs glob →
      openRead stack.myhd fw = .ok hd → dns323fw stack istack fw = .ok (files, out) →
      ∀ i ∈ evalArgs glob (commandSubst out), Expected hd i := by
  intro h
  have hexpected := h noFiles .zero .zero
    (frodoFile (frodoHeader 7 1 1 1 128) commandNames) _ _ _ globs_noFiles
    (openRead_frodoFile 7 1 1 1 128 commandNames)
    (dns323fw_frodoFile 7 1 1 1 128 commandNames .zero) "dir=a;reboot".toList
  rw [expected_iff_mem] at hexpected
  refine absurd (hexpected ?_) (by decide +kernel)
  rw [evalArgs_splitOutput globs_noFiles]
  refine List.mem_append_right _ ?_
  decide +kernel

end AltF.Cgi
