/-
  Cgi/FlashForm.lean --- firmware_proc.cgi: when it offers to flash.

  The page knows the firmware by the four id bytes of its header, as the evaluated
  assignments give them; dns323-fw knows it by its signature, in either layout.
-/
import Mathlib.Data.List.Forall2
import AltF.Cgi.FirmwareProc

set_option autoImplicit false

namespace AltF.Cgi

open AltF.Foundation AltF.Firmware AltF.Shell AltF.SysFiles

/-! ## The tables -/

/-- `$ftype` -/
inductive FType where
  | dns327LAx
  | dns325Ax
  | dns320Ax
  | dnr322LAx
  | dns320Bx
  | dns320LAx
  | dns321Ax
  | dns343
  | dns323
  | ch3snas
  | duo35lr
  deriving DecidableEq, Repr

/-- `case "$sig"` -/
def ftypes : List (Text × FType) :=
  [("08d1".toList, .dns327LAx), ("0851".toList, .dns325Ax), ("0852".toList, .dns325Ax),
    ("0871".toList, .dns320Ax), ("0872".toList, .dns320Ax), ("1821".toList, .dnr322LAx),
    ("08c1".toList, .dns320Bx), ("08b1".toList, .dns320LAx), ("a111".toList, .dns321Ax),
    ("a112".toList, .dns321Ax), ("9111".toList, .dns343), ("9112".toList, .dns343),
    ("7111".toList, .dns323), ("7211".toList, .ch3snas), ("7311".toList, .duo35lr)]

/-- `case "$brd"`: the boards, and the firmware that leaves `$notcomp` alone. -/
def boards : List (Text × List FType) :=
  [("DNS-327L-Ax".toList, [.dns327LAx]), ("DNS-325-Ax".toList, [.dns325Ax]),
    ("DNS-320-Ax".toList, [.dns320Ax]), ("DNR-322L-Ax".toList, [.dnr322LAx]),
    ("DNS-321-Ax".toList, [.dns321Ax]), ("DNS-320-Bx".toList, [.dns320Bx, .dns320LAx]),
    ("DNS-320L-Ax".toList, [.dns320Bx, .dns320LAx]),
    ("DNS-323-A1".toList, [.dns323, .ch3snas, .duo35lr]),
    ("DNS-323-B1".toList, [.dns323, .ch3snas, .duo35lr]),
    ("DNS-323-C1".toList, [.dns323, .ch3snas, .duo35lr])]

/-- Firmware of the type is for the board. -/
def compatible (brd : Text) (ft : FType) : Bool :=
  match boards.lookup brd with
  | some fts => fts.contains ft
  | none => false

/-! ## The page -/

/-- What the page ends with. -/
inductive Page where
  /-- "The uploaded file is empty." -/
  | empty
  /-- "The uploaded file does not match its sha1 file" -/
  | sha1Mismatch
  /-- "does not seems to be a legitimate firmware file" -/
  | notFirmware
  /-- "does not seems to be compatible with supported firmware" -/
  | unknown
  /-- `$nomsg` -/
  | notCompatible
  /-- "Everything looks OK.", and the form to flash -/
  | flashForm
  deriving DecidableEq, Repr

/-- `eval "$i"` for each of the words; `none` when one of them is no assignment. -/
def evalAll (env : Env) (args : List Text) : Option Env :=
  args.foldlM (evalText nothing) env

/-- `$sig` -/
def sigVar (env : Env) : Text :=
  env "product_id".toList ++ env "custom_id".toList ++ env "model_id".toList ++
    env "sub_id".toList

/-- From `$sig` and the board to the form. -/
def checkBoard (env : Env) (brd : Text) : Page :=
  match ftypes.lookup (sigVar env) with
  | none => .unknown
  | some ft =>
      let notcomp := if compatible brd ft then env "notcomp".toList else "yes".toList
      if notcomp ≠ [] then .notCompatible else .flashForm

/-- The page for the uploaded file `fw`, on the board that /tmp/board names, with the
variables the upload leaves.  `sha1` tells whether a sha1 file came with it that
matches.  `none`: an evaluated word is no assignment. -/
def firmwareProc (glob : Text → List Text) (stack : SplitStack) (istack : InfoStack) (env : Env)
    (brd : Text) (sha1 : Option Bool) (fw : Bytes) : Option Page :=
  if fw = [] then some .empty
  else if sha1 = some false then some .sha1Mismatch
  else
    match dns323fw stack istack fw with
    | .error _ => some .notFirmware
    | .ok (_, out) =>
        (evalAll env (evalArgs glob (commandSubst out))).map fun env => checkBoard env brd

/-! ## Matching firmware -/

/-- The signatures in the headers of a board's firmware. -/
def boardSignatures : List (Text × List SigNum) :=
  [("DNS-323-A1".toList, [0]), ("DNS-323-B1".toList, [0]), ("DNS-323-C1".toList, [0]),
    ("DNS-321-Ax".toList, [1]), ("DNS-325-Ax".toList, [3]), ("DNS-320-Ax".toList, [4]),
    ("DNS-320-Bx".toList, [5, 6]), ("DNS-320L-Ax".toList, [5, 6]), ("DNS-327L-Ax".toList, [7]),
    ("DNR-322L-Ax".toList, [8])]

/-- The signature is in the layout it belongs to. -/
def OwnLayout (hd : MyControlHeader) : Prop := hd.type = (sigOf hd.sigNum).size

/-- The header was recognised by a signature of the board, in its own layout. -/
def Fits (brd : Text) (hd : MyControlHeader) : Prop :=
  (∃ sigs, boardSignatures.lookup brd = some sigs ∧ hd.sigNum ∈ sigs) ∧ OwnLayout hd

/-- The signatures of the boards that firmware of the type is for.  No board takes
firmware of the DNS-343. -/
def FType.signatures : FType → List SigNum
  | .dns327LAx => [7]
  | .dns325Ax => [3]
  | .dns320Ax => [4]
  | .dnr322LAx => [8]
  | .dns320Bx | .dns320LAx => [5, 6]
  | .dns321Ax => [1]
  | .dns343 => []
  | .dns323 | .ch3snas | .duo35lr => [0]

theorem mem_boards_of_compatible {brd : Text} {ft : FType} (h : compatible brd ft = true) :
    ∃ fts, (brd, fts) ∈ boards ∧ ft ∈ fts := by
  unfold compatible at h
  cases hbrd : boards.lookup brd with
  | none =>
      rw [hbrd] at h
      cases h
  | some fts =>
      rw [hbrd] at h
      obtain ⟨l₁, l₂, hboards, -⟩ := List.lookup_eq_some_iff.mp hbrd
      refine ⟨fts, ?_, by simpa using h⟩
      rw [hboards]
      exact List.mem_append_right l₁ List.mem_cons_self

/-- The tables agree: a board has the signatures of the firmware it takes. -/
theorem boardSignatures_of_compatible {brd : Text} {ft : FType} (h : compatible brd ft = true) :
    boardSignatures.lookup brd = some ft.signatures := by
  have htables : ∀ x ∈ boards, ∀ ft ∈ x.2, boardSignatures.lookup x.1 = some ft.signatures := by
    decide
  obtain ⟨fts, hmem, hft⟩ := mem_boards_of_compatible h
  exact htables (brd, fts) hmem ft hft

theorem ne_dns343_of_compatible {brd : Text} {ft : FType} (h : compatible brd ft = true) :
    ft ≠ .dns343 := by
  have htables : ∀ x ∈ boards, ∀ ft ∈ x.2, ft ≠ .dns343 := by decide
  obtain ⟨fts, hmem, hft⟩ := mem_boards_of_compatible h
  exact htables (brd, fts) hmem ft hft

/-- Every type but the DNS-343 is for some board. -/
theorem exists_compatible {ft : FType} (h : ft ≠ .dns343) : ∃ brd, compatible brd ft = true := by
  have htypes : ∀ ft : FType, ft ≠ .dns343 → ∃ x ∈ boards, compatible x.1 ft = true := by
    intro ft
    cases ft <;> decide
  obtain ⟨x, -, hx⟩ := htypes ft h
  exact ⟨x.1, hx⟩

/-! ## The variables of the header -/

/-- The variables that the six assignments set. -/
def values (hd : MyControlHeader) : List (Text × Text) :=
  (ids hd).map (fun x => (x.1, hexText x.2)) ++ [("signature".toList, sigText hd.sigNum)]

/-- The variables after the six assignments. -/
def assigned (env : Env) (hd : MyControlHeader) : Env := assignAll env (values hd)

/-- A word that sets a variable, and does nothing else. -/
def Sets (i : Text) (x : Text × Text) : Prop :=
  ∀ env, evalText nothing env i = some (Function.update env x.1 x.2)

theorem sets_id {name : Text} (hname : isName name = true) (b : UInt8) :
    Sets (assignment name (hexText b)) (name, hexText b) := by
  have hdigits : "0123456789abcdef".toList.all isPlain = true := by decide
  have hplain : (hexText b).all isPlain = true := by
    rw [List.all_eq_true]
    intro c hc
    have hhex := isHexDigit_hexText b c hc
    exact List.all_eq_true.mp hdigits c (by simpa [isHexDigit] using hhex)
  intro env
  unfold evalText assignment
  rw [read_plain_assignment _ (.inl rfl) env hname hplain (.inl rfl)]
  rfl

theorem sets_signature (t : SigNum) :
    Sets (assignment "signature".toList ('"' :: sigText t ++ ['"']))
      ("signature".toList, sigText t) := by
  have hintact : ∀ t, intact true (sigText t) = true := by decide +kernel
  have hquotes : ∀ t, unquote (sigText t) = sigText t := by decide +kernel
  have hsplit : assignment "signature".toList ('"' :: sigText t ++ ['"']) =
      "signature".toList ++ '=' :: '"' :: sigText t ++ ['"', ';'] := by
    unfold assignment
    simp
  intro env
  unfold evalText
  rw [hsplit, read_quoted_assignment _ (.inl rfl) env (by decide) (hintact t) (.inl rfl),
    hquotes]
  rfl

/-- The assignments of a header set its variables, in this order. -/
theorem sets_assignments (hd : MyControlHeader) :
    List.Forall₂ Sets (assignments hd) (values hd) := by
  have hids : List.Forall₂ Sets ((ids hd).map fun x => assignment x.1 (hexText x.2))
      ((ids hd).map fun x => (x.1, hexText x.2)) := by
    rw [List.forall₂_map_left_iff, List.forall₂_map_right_iff, List.forall₂_same]
    intro x hx
    have hnames : ((ids hd).map Prod.fst).all isName = true := by
      change ["product_id".toList, "custom_id".toList, "model_id".toList, "sub_id".toList,
        "NewVersion".toList].all isName = true
      decide
    exact sets_id (List.all_eq_true.mp hnames x.1 (List.mem_map_of_mem hx)) x.2
  exact List.rel_append hids (.cons (sets_signature hd.sigNum) .nil)

theorem evalAll_of_sets {is : List Text} {xs : List (Text × Text)} (h : List.Forall₂ Sets is xs)
    (env : Env) :
    evalAll env is = some (assignAll env xs) := by
  induction h generalizing env with
  | nil => rfl
  | cons hset _ ih =>
      unfold evalAll at ih ⊢
      rw [List.foldlM_cons, hset env]
      exact ih _

theorem values_names (hd : MyControlHeader) : (values hd).map Prod.fst =
    ["product_id".toList, "custom_id".toList, "model_id".toList, "sub_id".toList,
      "NewVersion".toList, "signature".toList] := rfl

theorem assigned_value (env : Env) {hd : MyControlHeader} {x : Text × Text} (hx : x ∈ values hd) :
    assigned env hd x.1 = x.2 :=
  (assignAll_of_nodup (by rw [values_names]; decide) env).1 x hx

theorem assigned_notcomp (env : Env) (hd : MyControlHeader) :
    assigned env hd "notcomp".toList = env "notcomp".toList :=
  (assignAll_of_nodup (by rw [values_names]; decide) env).2 _ (by rw [values_names]; decide)

/-- Assignments of the header, evaluated again, change nothing. -/
theorem evalAll_again (env : Env) {hd : MyControlHeader} {is : List Text}
    (his : ∀ i ∈ is, i ∈ assignments hd) :
    evalAll (assigned env hd) is = some (assigned env hd) := by
  induction is with
  | nil => rfl
  | cons i is ih =>
      have hset : ∃ x ∈ values hd, Sets i x := by
        obtain ⟨k, hk, hi⟩ := List.getElem_of_mem (his i List.mem_cons_self)
        have hlen := (sets_assignments hd).length_eq
        refine ⟨(values hd)[k], List.getElem_mem (by omega), ?_⟩
        rw [← hi]
        exact (sets_assignments hd).get hk (by omega)
      obtain ⟨x, hx, hset⟩ := hset
      have hself : Function.update (assigned env hd) x.1 x.2 = assigned env hd := by
        rw [← assigned_value env hx, Function.update_eq_self]
      have hrest := ih fun j hj => his j (List.mem_cons_of_mem i hj)
      unfold evalAll at hrest ⊢
      rw [List.foldlM_cons, hset, hself]
      exact hrest

/-! ## The main result -/

/-- The four id bytes of a header, as the page puts them together. -/
def idsText (hd : MyControlHeader) : Text :=
  hexText hd.productId ++ hexText hd.customId ++ hexText hd.modelId ++ hexText hd.subId

theorem sigVar_assigned (env : Env) (hd : MyControlHeader) :
    sigVar (assigned env hd) = idsText hd := by
  have hid : ∀ n b, (n, b) ∈ ids hd → assigned env hd n = hexText b := fun n b h =>
    assigned_value (x := (n, hexText b)) env
      (List.mem_append_left _ (List.mem_map_of_mem (f := fun x => (x.1, hexText x.2)) h))
  unfold sigVar idsText
  rw [hid "product_id".toList hd.productId (by simp [ids]),
    hid "custom_id".toList hd.customId (by simp [ids]),
    hid "model_id".toList hd.modelId (by simp [ids]), hid "sub_id".toList hd.subId (by simp [ids])]

/-- The form is offered for a type of firmware that is for the board. -/
theorem checkBoard_eq_flashForm_iff (env : Env) (hd : MyControlHeader) (brd : Text) :
    checkBoard (assigned env hd) brd = .flashForm ↔
      ∃ ft, ftypes.lookup (idsText hd) = some ft ∧ compatible brd ft = true ∧
        env "notcomp".toList = [] := by
  unfold checkBoard
  rw [sigVar_assigned, assigned_notcomp]
  cases ftypes.lookup (idsText hd) with
  | none => exact ⟨nofun, fun ⟨_, h, _⟩ => nomatch h⟩
  | some ft =>
      simp only [Option.some.injEq, exists_eq_left']
      cases compatible brd ft with
      | false =>
          have hyes : "yes".toList ≠ [] := by decide
          simp only [Bool.false_eq_true, if_false, if_pos hyes, reduceCtorEq, false_and]
      | true =>
          simp only [if_true, true_and]
          by_cases hnotcomp : env "notcomp".toList = []
          · rw [if_neg (not_not_intro hnotcomp)]
            exact ⟨fun _ => hnotcomp, fun _ => rfl⟩
          · rw [if_pos hnotcomp]
            exact ⟨nofun, fun h => absurd h hnotcomp⟩

section File

variable {glob : Text → List Text} (hglob : Globs glob) {stack : SplitStack} {istack : InfoStack}
  {fw : Bytes} {hd : MyControlHeader} (hread : openRead stack.myhd fw = .ok hd)
  {files : SplitFiles} {out : Text} (hrun : dns323fw stack istack fw = .ok (files, out))
  (hnames : hd.nextOffset ≠ 0 →
    ∀ i ∈ evalArgs glob (extendNames (readExtendHeader istack.ehd fw hd.nextOffset.toNat)),
      Expected hd i)

include hglob hread hrun hnames

/-- What the words do, when all are assignments of the header. -/
theorem evalAll_output (env : Env) :
    evalAll env (evalArgs glob (commandSubst out)) = some (assigned env hd) := by
  rw [output_eq hread hrun, evalArgs_splitOutput hglob, evalAll, List.foldlM_append]
  refine (congrArg (· >>= _) (evalAll_of_sets (sets_assignments hd) env)).trans ?_
  refine evalAll_again env fun i hi => ?_
  by_cases hnext : hd.nextOffset ≠ 0
  · rw [if_pos hnext] at hi
    exact (expected_iff_mem hd i).mp (hnames hnext i hi)
  · rw [if_neg hnext] at hi
    cases hi

/-- **The form to flash** is offered for matching firmware only, on every board, if
and only if the signature and the layout of the header are those of the type its id
bytes name. -/
theorem flashForm_fits_iff :
    (∀ env brd sha1,
      firmwareProc glob stack istack env brd sha1 fw = some .flashForm → Fits brd hd) ↔
      ∀ ft, ftypes.lookup (idsText hd) = some ft → ft ≠ .dns343 →
        hd.sigNum ∈ ft.signatures ∧ OwnLayout hd := by
  have hfw : fw ≠ [] := by
    rintro rfl
    cases hread
  have hpage : ∀ env brd sha1, firmwareProc glob stack istack env brd sha1 fw = some .flashForm ↔
      sha1 ≠ some false ∧ checkBoard (assigned env hd) brd = .flashForm := by
    intro env brd sha1
    unfold firmwareProc
    rw [if_neg hfw]
    by_cases hsha1 : sha1 = some false
    · rw [if_pos hsha1]
      exact ⟨nofun, fun h => absurd hsha1 h.1⟩
    · rw [if_neg hsha1, hrun]
      simp only [evalAll_output hglob hread hrun hnames env, Option.map_some, Option.some.injEq]
      exact ⟨fun h => ⟨hsha1, h⟩, fun h => h.2⟩
  constructor
  · intro h ft hft h343
    obtain ⟨brd, hbrd⟩ := exists_compatible h343
    obtain ⟨⟨sigs, hsigs, hmem⟩, hlayout⟩ := h (fun _ => []) brd none
      ((hpage _ brd none).mpr ⟨nofun, (checkBoard_eq_flashForm_iff _ hd brd).mpr
        ⟨ft, hft, hbrd, rfl⟩⟩)
    rw [boardSignatures_of_compatible hbrd] at hsigs
    obtain rfl := Option.some.inj hsigs
    exact ⟨hmem, hlayout⟩
  · intro h env brd sha1 hflash
    obtain ⟨ft, hft, hbrd, -⟩ :=
      (checkBoard_eq_flashForm_iff env hd brd).mp ((hpage env brd sha1).mp hflash).2
    obtain ⟨hmem, hlayout⟩ := h ft hft (ne_dns343_of_compatible hbrd)
    exact ⟨⟨ft.signatures, boardSignatures_of_compatible hbrd, hmem⟩, hlayout⟩

end File

theorem flashForm_fits_frodo :
    ftypes.lookup (idsText (frodoHeader 7 1 1 1 0)) = some .dns323 ∧
      ∀ env brd sha1,
        firmwareProc noFiles .zero .zero env brd sha1 (frodoFile (frodoHeader 7 1 1 1 0) []) =
          some .flashForm → Fits brd (frodoHeader 7 1 1 1 0) := by
  have hft : ftypes.lookup (idsText (frodoHeader 7 1 1 1 0)) = some .dns323 := by decide +kernel
  refine ⟨hft, (flashForm_fits_iff globs_noFiles (openRead_frodoFile 7 1 1 1 0 [])
    (dns323fw_frodoFile 7 1 1 1 0 [] .zero) fun hnext => absurd rfl hnext).mpr ?_⟩
  intro ft h _
  obtain rfl := Option.some.inj (hft.symm.trans h)
  exact ⟨List.mem_singleton_self _, rfl⟩

/-- FrodoII's signature on a file with the ids of the DNS-325. -/
theorem not_flashForm_fits :
    ¬ ∀ (glob : Text → List Text) (stack : SplitStack) (istack : InfoStack) (env : Env)
      (brd : Text) (sha1 : Option Bool) (fw : Bytes) (hd : MyControlHeader), Globs glob →
      openRead stack.myhd fw = .ok hd →
      firmwareProc glob stack istack env brd sha1 fw = some .flashForm → Fits brd hd := by
  intro h
  have hfits := h noFiles .zero .zero (fun _ => []) "DNS-325-Ax".toList none
    (frodoFile (frodoHeader 0 8 5 1 0) []) _ globs_noFiles (openRead_frodoFile 0 8 5 1 0 [])
  have hpage : firmwareProc noFiles .zero .zero (fun _ => []) "DNS-325-Ax".toList none
      (frodoFile (frodoHeader 0 8 5 1 0) []) = some .flashForm := by
    have hft : ftypes.lookup (idsText (frodoHeader 0 8 5 1 0)) = some .dns325Ax := by decide +kernel
    unfold firmwareProc
    rw [if_neg (by decide), if_neg nofun, dns323fw_frodoFile]
    simp only [evalAll_output globs_noFiles (openRead_frodoFile 0 8 5 1 0 [])
      (dns323fw_frodoFile 0 8 5 1 0 [] .zero) (fun hnext => absurd rfl hnext), Option.map_some,
      Option.some.injEq]
    exact (checkBoard_eq_flashForm_iff _ _ _).mpr ⟨.dns325Ax, hft, by decide, rfl⟩
  obtain ⟨⟨sigs, hsigs, hmem⟩, -⟩ := hfits hpage
  have hsigs' : boardSignatures.lookup "DNS-325-Ax".toList = some [3] := by decide
  obtain rfl := Option.some.inj (hsigs'.symm.trans hsigs)
  exact absurd hmem (by decide)

end AltF.Cgi
