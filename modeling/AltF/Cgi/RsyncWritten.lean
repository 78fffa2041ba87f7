/-
  Cgi/RsyncWritten.lean --- what the scripts write to rsyncd.conf is such a file again, with the
  modules that are added, left or entered; and what the page sends can be written.
-/
import AltF.Cgi.RsyncConf

set_option autoImplicit false

namespace AltF.Cgi.Rsync

open AltF.Shell AltF.SysFiles AltF.Cgi.Secrets

/-! ## Accounts -/

/-- Lines of a module do not end it. -/
theorem Block.lines_ne_nil (b : Block) : ∀ l ∈ b.body.map Opt.line, List.isEmpty l = false := by
  intro l hl
  obtain ⟨o, -, rfl⟩ := List.mem_map.mp hl
  obtain ⟨c, hc, -⟩ := o.exists_head
  cases hline : o.line with
  | nil =>
      rw [hline] at hc
      cases hc
  | cons d t => rfl

/-- A range from the first line of a module deletes the module. -/
theorem sedRemoveRange_text {p : Text → Bool} (hp : ∀ l, p l = true → isHeader l = true)
    (c : Conf) :
    sedRemoveRange p List.isEmpty false c.text = (c.keep fun b => !p (header b.name)).text := by
  have hnot : ∀ {l : Text}, isHeader l = false → p l = false := fun {l} hl =>
    Bool.eq_false_iff.mpr fun htrue => Bool.false_ne_true (hl.symm.trans (hp l htrue))
  have hbody : ∀ b : Block, ∀ l ∈ b.body.map Opt.line, p l = false := fun b l hl => by
    obtain ⟨o, -, rfl⟩ := List.mem_map.mp hl
    exact hnot o.isHeader_line
  have hblank : ∀ l ∈ [([] : Text)], p l = false := fun l hl => by
    rw [List.mem_singleton.mp hl]
    exact hnot rfl
  have hlines : ∀ b : Block, p (header b.name) = false → ∀ l ∈ b.lines, p l = false :=
    fun b hb => List.forall_mem_cons.mpr ⟨hb, hbody b⟩
  have hentries : ∀ entries : List (Option Block),
      sedRemoveRange p List.isEmpty false
          (entries.flatMap entryLines ++ c.last.toList.flatMap Block.lines) =
        (entries.filter fun e => e.all fun b => !p (header b.name)).flatMap entryLines ++
          (c.last.filter fun b => !p (header b.name)).toList.flatMap Block.lines := by
    intro entries
    induction entries with
    | nil =>
        cases c.last with
        | none => rfl
        | some b =>
            change sedRemoveRange p List.isEmpty false (b.lines ++ []) = _
            cases hb : p (header b.name) with
            | true =>
                rw [List.append_nil, Block.lines, sedRemoveRange, if_pos hb,
                  sedRemoveRange_unstopped b.lines_ne_nil, Option.filter_some, hb]
                rfl
            | false =>
                rw [sedRemoveRange_outside (hlines b hb), Option.filter_some, hb]
                rfl
    | cons e entries ih =>
        rw [List.flatMap_cons, List.append_assoc]
        cases e with
        | none =>
            rw [entryLines, sedRemoveRange_outside hblank, ih, List.filter_cons_of_pos rfl,
              List.flatMap_cons, List.append_assoc, entryLines]
        | some b =>
            cases hb : p (header b.name) with
            | true =>
                have hdrop : (Option.all (fun b => !p (header b.name)) (some b)) = false := by
                  rw [Option.all_some, hb, Bool.not_true]
                rw [List.filter_cons_of_neg (Bool.eq_false_iff.mp hdrop), ← ih, entryLines,
                  Block.lines, List.cons_append, List.cons_append, sedRemoveRange, if_pos hb,
                  List.append_assoc, List.singleton_append,
                  sedRemoveRange_inside b.lines_ne_nil rfl]
            | false =>
                have hkept : (Option.all (fun b => !p (header b.name)) (some b)) = true := by
                  rw [Option.all_some, hb, Bool.not_false]
                rw [List.filter_cons_of_pos hkept, entryLines, List.append_assoc,
                  sedRemoveRange_outside (hlines b hb), sedRemoveRange_outside hblank, ih,
                  List.flatMap_cons, entryLines, List.append_assoc, List.append_assoc]
  rw [Conf.text, sedRemoveRange_outside fun l hl => hnot (c.plain l hl).1, hentries]
  rfl

/-- Deleting an account takes the modules whose first line begins with the name of either, in
brackets, where a dot in the user name is any character. -/
def isHome (a : Account) (n : Text) : Bool :=
  (header a.nick).isPrefixOf (header n) || dotPrefix (header a.uname) (header n)

theorem Conf.keep_keep (q r : Block → Bool) (c : Conf) :
    (c.keep q).keep r = c.keep fun b => q b && r b := by
  have hentries : (c.entries.filter fun e => e.all q).filter (fun e => e.all r) =
      c.entries.filter fun e => e.all fun b => q b && r b := by
    rw [List.filter_filter]
    refine List.filter_congr fun e _ => ?_
    cases e with
    | none => rfl
    | some b => exact Bool.and_comm (r b) (q b)
  have hlast : (c.last.filter q).filter r = c.last.filter fun b => q b && r b := by
    cases c.last with
    | none => rfl
    | some b =>
        rw [Option.filter_some, Option.filter_some]
        cases q b with
        | true => exact Option.filter_some
        | false => rfl
  simp only [Conf.keep, hentries, hlast]

theorem removeHome_text (a : Account) (c : Conf) :
    removeHome a c.text = (c.keep fun b => !isHome a b.name).text := by
  have hnick : ∀ l, (header a.nick).isPrefixOf l = true → isHeader l = true := by
    intro l hl
    obtain ⟨t, rfl⟩ := List.isPrefixOf_iff_prefix.mp hl
    rfl
  have huname : ∀ l, dotPrefix (header a.uname) l = true → isHeader l = true := by
    rintro (_ | ⟨d, l⟩) hl
    · cases hl
    · rw [header, dotPrefix, Bool.and_eq_true, Bool.or_eq_true, beq_iff_eq, beq_iff_eq] at hl
      rw [isHeader, List.head?_cons, ← hl.1.resolve_left (by decide), beq_self_eq_true]
  have hkeep : (fun b : Block => !isHome a b.name) = fun b =>
      !(header a.nick).isPrefixOf (header b.name) && !dotPrefix (header a.uname) (header b.name) :=
    funext fun b => Bool.not_or _ _
  rw [removeHome, sedRemoveRange_text hnick, sedRemoveRange_text huname, Conf.keep_keep, hkeep]

/-- Text that stands in front of a value, or behind one. -/
structure IsPart (u : Text) : Prop where
  chars : ∀ c ∈ u, "\n\r\t\\\"&*".toList.contains c = false
  letter : ∃ c ∈ u, "-neE".toList.contains c = false

theorem IsPart.ne_nil {u : Text} (hu : IsPart u) : u ≠ [] := by
  rintro rfl
  obtain ⟨c, hc, -⟩ := hu.letter
  exact List.not_mem_nil hc

theorem IsValue.append_left {u v : Text} (hv : IsValue v) (hu : IsPart u)
    (hfront : StartsSolid u) : IsValue (u ++ v) where
  ne_nil := List.append_ne_nil_of_left_ne_nil hu.ne_nil v
  chars := List.forall_mem_append.mpr ⟨hu.chars, hv.chars⟩
  front := fun c hc => hfront c (by rwa [List.head?_append_of_ne_nil u hu.ne_nil] at hc)
  back := hv.back.append u hv.ne_nil
  option := by
    obtain ⟨c, hc, hletter⟩ := hu.letter
    exact isEchoOption_of_mem (List.mem_append_left v hc) hletter

theorem IsValue.append_right {u v : Text} (hv : IsValue v) (hu : IsPart u)
    (hback : EndsSolid u) : IsValue (v ++ u) where
  ne_nil := List.append_ne_nil_of_left_ne_nil hv.ne_nil u
  chars := List.forall_mem_append.mpr ⟨hv.chars, hu.chars⟩
  front := fun c hc => hv.front c (by rwa [List.head?_append_of_ne_nil v hv.ne_nil] at hc)
  back := hback.append v hu.ne_nil
  option := by
    obtain ⟨c, hc, hletter⟩ := hu.letter
    exact isEchoOption_of_mem (List.mem_append_right v hc) hletter

/-- The default comment, and that of a home folder. -/
theorem IsValue.comment {v : Text} (hv : IsValue v) :
    IsValue (v ++ " module".toList) ∧ IsValue (v ++ " home folder".toList) :=
  ⟨hv.append_right ⟨forall_of_all (by decide), 'm', by decide, by decide⟩
      (by rintro c ⟨⟩; rfl),
    hv.append_right ⟨forall_of_all (by decide), 'h', by decide, by decide⟩
      (by rintro c ⟨⟩; rfl)⟩

/-- The options of a home folder, for the module `n`. -/
def homeBody (a : Account) : List Opt :=
  [⟨1, .path, "/home/".toList ++ a.uname⟩, ⟨1, .comment, a.uname ++ " home folder".toList⟩,
    ⟨1, .readOnly, "no".toList⟩, ⟨1, .authUsers, a.nick⟩, ⟨1, .uid, a.nick⟩,
    ⟨1, .gid, "users".toList⟩]

/-- The module of a home folder. -/
def homeModule (a : Account) (n : Text) : Module := (homeBody a).foldl .assign ⟨n, fun _ => none⟩

/-- Both names of an account can be names of modules. -/
structure IsShared (a : Account) : Prop where
  nick : IsName a.nick
  uname : IsName a.uname

theorem IsShared.isValue {a : Account} (ha : IsShared a) : ∀ o ∈ homeBody a, IsValue o.value := by
  have hhome : IsValue ("/home/".toList ++ a.uname) :=
    ha.uname.toIsValue.append_left ⟨forall_of_all (by decide), '/', by decide, by decide⟩
      (by rintro c ⟨⟩; rfl)
  intro o ho
  simp only [homeBody, List.mem_cons, List.not_mem_nil, or_false] at ho
  rcases ho with rfl | rfl | rfl | rfl | rfl | rfl
  · exact hhome
  · exact ha.uname.comment.2
  · exact isValue_of (by decide)
  · exact ha.nick.toIsValue
  · exact ha.nick.toIsValue
  · exact isValue_of (by decide)

theorem addHome_text {a : Account} (ha : IsShared a) (c : Conf) :
    ∃ c' : Conf, addHome a c.text = c'.text ∧
      c'.modules = c.modules ++ [homeModule a a.nick, homeModule a a.uname] := by
  let nick : Block := ⟨a.nick, homeBody a, ha.nick, ha.isValue⟩
  let uname : Block := ⟨a.uname, homeBody a, ha.uname, ha.isValue⟩
  refine ⟨⟨c.preamble, c.entries ++ [c.last, some nick], some uname, c.plain⟩, ?_, ?_⟩
  · have hnick : homeLines a a.nick = [] :: nick.lines := rfl
    have huname : homeLines a a.uname = [] :: uname.lines := rfl
    have hlast : entryLines c.last = c.last.toList.flatMap Block.lines ++ [[]] := by
      cases c.last with
      | none => rfl
      | some b => exact congrArg (· ++ [[]]) (List.append_nil b.lines).symm
    have hsome : entryLines (some nick) = nick.lines ++ [[]] := rfl
    rw [addHome, hnick, huname, Conf.text, Conf.text]
    simp only [List.flatMap_append, List.flatMap_cons, List.flatMap_nil, hlast, hsome,
      Option.toList_some, List.append_assoc, List.append_nil, List.cons_append, List.nil_append]
  · have hlast : [c.last, some nick].reduceOption = c.last.toList ++ [nick] := by
      cases c.last <;> rfl
    rw [Conf.modules, Conf.blocks, List.reduceOption_append, hlast, Conf.modules, Conf.blocks]
    simp only [List.map_append, List.append_assoc]
    rfl

/-! ## What the form writes -/

/-- A row whose fields arrive as they were entered. -/
structure Form.Plain (f : Form) : Prop where
  ldir : f.ldir ≠ [] → IsValue f.ldir
  shname : f.shname ≠ [] → IsName f.shname
  cmt : f.cmt ≠ [] → IsValue f.cmt
  user : IsValue f.user

/-- The module that a row stands for, if it has a folder and a name. -/
def written (group : Text → Text) (f : Form) : Option Module :=
  if f.ldir = [] ∨ f.shname = [] then none
  else
    let auth : Bool := f.user ≠ "anybody".toList
    some ⟨f.shname, fun
      | .path => some f.ldir
      | .comment => some (if f.cmt ≠ [] then f.cmt else f.shname ++ " module".toList)
      | .maxConnections => if f.avail then some "-1".toList else none
      | .list => if f.browse then none else some "no".toList
      | .authUsers => if auth then some f.user else none
      | .uid => if auth then some f.user else none
      | .gid => if auth then some (group f.user) else none
      | .readOnly => if f.rdonly then none else some "no".toList⟩

/-- The options of a row. -/
def rowBody (group : Text → Text) (f : Form) : List Opt :=
  ⟨1, .comment, if f.cmt ≠ [] then f.cmt else f.shname ++ " module".toList⟩ ::
    ⟨1, .path, f.ldir⟩ ::
    (if f.avail then [⟨1, .maxConnections, "-1".toList⟩] else []) ++
    (if f.browse then [] else [⟨1, .list, "no".toList⟩]) ++
    (if f.user ≠ "anybody".toList then
      [⟨1, .authUsers, f.user⟩, ⟨1, .uid, f.user⟩, ⟨1, .gid, group f.user⟩] else []) ++
    (if f.rdonly then [] else [⟨1, .readOnly, "no".toList⟩])

theorem writeRow_eq (group : Text → Text) {f : Form} (hf : f.Plain) (hldir : f.ldir ≠ [])
    (hname : f.shname ≠ []) :
    writeRow group f = header f.shname :: (rowBody group f).map Opt.line ++ [[]] := by
  have hn := hf.shname hname
  have hheader : join (words (header f.shname)) = header f.shname := by
    have hback : EndsSolid (header f.shname) :=
      EndsSolid.append ('[' :: f.shname) (by rintro c ⟨⟩; rfl) (List.cons_ne_nil _ _)
    have hclose : squeeze (f.shname ++ [']']) = f.shname ++ [']'] := by
      rw [squeeze_append_cons f.shname [] rfl, hn.squeezed]
      rfl
    rw [join_words (by rintro c ⟨⟩; rfl) hback, header, squeeze_cons_of_not_blank rfl, hclose]
  have hcmt : ('\t' :: if f.cmt ≠ [] then "comment = ".toList ++ f.cmt
      else "comment = ".toList ++ f.shname ++ " module".toList) =
      Opt.line ⟨1, .comment, if f.cmt ≠ [] then f.cmt else f.shname ++ " module".toList⟩ := by
    split
    · rfl
    · rfl
  rw [writeRow, if_neg (not_or.mpr ⟨hldir, hname⟩), hheader, hcmt, rowBody]
  simp only [List.map_append, List.map_cons, List.cons_append]
  congr 3
  cases f.avail <;> cases f.browse <;> cases f.rdonly <;>
    by_cases huser : f.user ≠ "anybody".toList
  all_goals
    first
    | rw [if_pos huser, if_pos huser]; rfl
    | rw [if_neg huser, if_neg huser]; rfl

theorem Form.Plain.isValue {f : Form} (hf : f.Plain) (hldir : f.ldir ≠ []) (hname : f.shname ≠ [])
    {group : Text → Text} (hgroup : ∀ u, IsValue (group u)) :
    ∀ o ∈ rowBody group f, IsValue o.value := by
  have hcmt : IsValue (if f.cmt ≠ [] then f.cmt else f.shname ++ " module".toList) := by
    split
    · rename_i hne
      exact hf.cmt hne
    · exact (hf.shname hname).toIsValue.comment.1
  have hoff : ∀ o ∈ if f.avail then [Opt.mk 1 .maxConnections "-1".toList] else [],
      IsValue o.value := by
    split
    · exact List.forall_mem_singleton.mpr (isValue_of (by decide))
    · exact List.forall_mem_nil _
  have hlist : ∀ o ∈ if f.browse then [] else [Opt.mk 1 .list "no".toList], IsValue o.value := by
    split
    · exact List.forall_mem_nil _
    · exact List.forall_mem_singleton.mpr (isValue_of (by decide))
  have hread : ∀ o ∈ if f.rdonly then [] else [Opt.mk 1 .readOnly "no".toList],
      IsValue o.value := by
    split
    · exact List.forall_mem_nil _
    · exact List.forall_mem_singleton.mpr (isValue_of (by decide))
  have hauth : ∀ o ∈ if f.user ≠ "anybody".toList then
      [Opt.mk 1 .authUsers f.user, ⟨1, .uid, f.user⟩, ⟨1, .gid, group f.user⟩] else [],
      IsValue o.value := by
    split
    · exact List.forall_mem_cons.mpr ⟨hf.user, List.forall_mem_cons.mpr ⟨hf.user,
        List.forall_mem_singleton.mpr (hgroup f.user)⟩⟩
    · exact List.forall_mem_nil _
  rw [rowBody]
  refine List.forall_mem_append.mpr ⟨List.forall_mem_append.mpr ⟨List.forall_mem_append.mpr
    ⟨?_, hlist⟩, hauth⟩, hread⟩
  exact List.forall_mem_cons.mpr ⟨hcmt, List.forall_mem_cons.mpr ⟨hf.ldir hldir, hoff⟩⟩

theorem rowModule_eq (group : Text → Text) {f : Form} (hldir : f.ldir ≠ [])
    (hname : f.shname ≠ []) :
    written group f = some ((rowBody group f).foldl Module.assign ⟨f.shname, fun _ => none⟩) := by
  rw [written, if_neg (not_or.mpr ⟨hldir, hname⟩), rowBody]
  refine congrArg some ?_
  cases f.avail <;> cases f.browse <;> cases f.rdonly <;>
    by_cases huser : f.user ≠ "anybody".toList
  all_goals
    simp only [huser, decide_true, decide_false, if_true, if_false, Bool.false_eq_true,
      List.append_nil, ne_eq, not_false_eq_true]
    exact congrArg (Module.mk f.shname) (funext fun k => by cases k <;> rfl)

/-- The blocks that rows are written as. -/
theorem exists_blocks {forms : List Form} (hforms : ∀ f ∈ forms, f.Plain) {group : Text → Text}
    (hgroup : ∀ u, IsValue (group u)) :
    ∃ bs : List Block, forms.flatMap (writeRow group) = (bs.map some).flatMap entryLines ∧
      bs.map Block.module = forms.filterMap (written group) := by
  induction forms with
  | nil => exact ⟨[], rfl, rfl⟩
  | cons f forms ih =>
      obtain ⟨bs, hlines, hmodules⟩ := ih fun f' hf' => hforms f' (List.mem_cons_of_mem f hf')
      by_cases hempty : f.ldir = [] ∨ f.shname = []
      · refine ⟨bs, ?_, ?_⟩
        · rw [List.flatMap_cons, writeRow, if_pos hempty, hlines, List.nil_append]
        · rw [hmodules, List.filterMap_cons_none (by rw [written, if_pos hempty])]
      · obtain ⟨hldir, hname⟩ := not_or.mp hempty
        have hf := hforms f List.mem_cons_self
        refine ⟨⟨f.shname, rowBody group f, hf.shname hname, hf.isValue hldir hname hgroup⟩ :: bs,
          ?_, ?_⟩
        · rw [List.flatMap_cons, writeRow_eq group hf hldir hname, hlines]
          rfl
        · rw [List.map_cons, hmodules,
            List.filterMap_cons_some (rowModule_eq group hldir hname)]
          rfl

/-- The lines in front of the first module. -/
theorem mem_takeWhile_text {c : Conf} {l : Text}
    (hl : l ∈ c.text.takeWhile fun l => !isHeader l) : l ∈ c.preamble ∨ l = [] := by
  have hpre : ∀ l ∈ c.preamble, (!isHeader l) = true := fun l hl => by
    rw [(c.plain l hl).1, Bool.not_false]
  rw [Conf.text, List.takeWhile_append_of_pos hpre, List.mem_append] at hl
  refine hl.imp_right fun hl => ?_
  generalize c.entries = entries at hl
  induction entries with
  | nil =>
      cases hlast : c.last with
      | none =>
          rw [hlast] at hl
          cases hl
      | some b =>
          rw [hlast] at hl
          cases hl
  | cons e entries ih =>
      cases e with
      | none =>
          rw [List.flatMap_cons, entryLines, List.append_assoc, List.singleton_append,
            List.takeWhile_cons_of_pos rfl] at hl
          rcases List.mem_cons.mp hl with rfl | hl
          · rfl
          · exact ih hl
      | some b => cases hl

theorem submit_text {forms : List Form} (hforms : ∀ f ∈ forms, f.Plain) {group : Text → Text}
    (hgroup : ∀ u, IsValue (group u)) (c : Conf) :
    ∃ c' : Conf, submit group forms c.text = c'.text ∧
      c'.modules = forms.filterMap (written group) := by
  obtain ⟨bs, hlines, hmodules⟩ := exists_blocks hforms hgroup
  have hplain : ∀ l ∈ c.text.takeWhile fun l => !isHeader l,
      isHeader l = false ∧ hasBrackets l = false := by
    intro l hl
    rcases mem_takeWhile_text hl with hpre | rfl
    · exact c.plain l hpre
    · exact ⟨rfl, rfl⟩
  refine ⟨⟨c.text.takeWhile fun l => !isHeader l, bs.map some, none, hplain⟩, ?_, ?_⟩
  · rw [submit, hlines]
    exact congrArg _ (List.append_nil _).symm
  · have hsome : (bs.map some).reduceOption = bs := by
      rw [List.reduceOption, List.filterMap_map, Function.id_comp, List.filterMap_some]
    rw [Conf.modules, Conf.blocks, hsome, Option.toList_none, List.append_nil, hmodules]

/-! ## What the page sends -/

/-- A module whose name and options are read as they are written. -/
structure Module.Plain (m : Module) : Prop where
  name : IsName m.name
  value : ∀ k v, m.opts k = some v → IsValue v

theorem Block.plain (b : Block) : b.module.Plain := by
  have hfold : ∀ {body : List Opt} (_ : ∀ o ∈ body, IsValue o.value) {m : Module} (_ : m.Plain),
      (body.foldl Module.assign m).Plain := by
    intro body hbody m hm
    induction body generalizing m with
    | nil => exact hm
    | cons o body ih =>
        refine ih (fun o' ho' => hbody o' (List.mem_cons_of_mem o ho')) ⟨hm.name, fun k v hv => ?_⟩
        by_cases hk : k = o.key
        · rw [hk, Module.assign] at hv
          have hself := (Function.update_self o.key (some o.value) m.opts).symm.trans hv
          rw [← Option.some.inj hself]
          exact hbody o List.mem_cons_self
        · rw [Module.assign] at hv
          have hother := Function.update_of_ne hk (some o.value) m.opts
          exact hm.value k v (hother.symm.trans hv)
  exact hfold b.isValue ⟨b.isName, fun _ v h => absurd h.symm (Option.some_ne_none v)⟩

theorem Conf.plain_modules (c : Conf) : ∀ m ∈ c.modules, m.Plain := by
  intro m hm
  obtain ⟨b, -, rfl⟩ := List.mem_map.mp hm
  exact b.plain

/-- What the page shows behind the `=` of another line is a value too. -/
theorem Key.isValue_seen (k : Key) {v : Text} (hv : IsValue v) : IsValue (k.seen v) := by
  have hpart : ∃ x, k.tail ++ " = ".toList = ' ' :: x ∧ IsPart x ∧ StartsSolid x := by
    have hequals : IsPart "= ".toList := ⟨forall_of_all (by decide), '=', by decide, by decide⟩
    have hletters : ∀ {x : Text}, (x.all fun c => !"\n\r\t\\\"&*".toList.contains c) = true →
        IsPart (x ++ " = ".toList) := fun {x} hx =>
      ⟨List.forall_mem_append.mpr ⟨fun c hc => (Bool.not_eq_true' _).mp
          (List.all_eq_true.mp hx c hc), forall_of_all (by decide)⟩,
        '=', List.mem_append_right x (by decide), by decide⟩
    cases k with
    | maxConnections =>
        exact ⟨"connections".toList ++ " = ".toList, by decide, hletters (by decide),
          by rintro c ⟨⟩; rfl⟩
    | authUsers =>
        exact ⟨"users".toList ++ " = ".toList, by decide, hletters (by decide),
          by rintro c ⟨⟩; rfl⟩
    | readOnly =>
        exact ⟨"only".toList ++ " = ".toList, by decide, hletters (by decide),
          by rintro c ⟨⟩; rfl⟩
    | _ => exact ⟨"= ".toList, by decide, hequals, by rintro c ⟨⟩; rfl⟩
  rw [Key.seen]
  split
  · obtain ⟨x, hx, hxpart, hfront⟩ := hpart
    have hvalue := hv.append_left hxpart hfront
    rw [hx, List.cons_append, hvalue.trim_space]
    exact hvalue
  · exact hv

/-- What the page reads of an option. -/
theorem Module.Plain.isValue_seenOpts {m : Module} (hm : m.Plain) (k : Key)
    (hne : m.seenOpts k.text ≠ []) : IsValue (m.seenOpts k.text) := by
  rw [Module.seenOpts_text] at hne ⊢
  cases hv : m.opts k with
  | none =>
      rw [hv] at hne
      exact absurd rfl hne
  | some v => exact k.isValue_seen (hm.value k v hv)

/-- The page shows what is set, and nothing else. -/
theorem Module.Plain.seenOpts_eq_nil_iff {m : Module} (hm : m.Plain) (k : Key) :
    m.seenOpts k.text = [] ↔ m.opts k = none := by
  rw [Module.seenOpts_text]
  cases hv : m.opts k with
  | none => exact iff_of_true rfl rfl
  | some v =>
      have hseen : k.seen v ≠ [] := (k.isValue_seen (hm.value k v hv)).ne_nil
      exact iff_of_false hseen (Option.some_ne_none v)

namespace Machine

variable (M : Machine)

theorem isValue_pick (sel : Text) : IsValue (M.pick sel) := by
  rw [pick]
  split
  · rename_i hmem
    exact M.users_value _ (List.contains_iff_mem.mp hmem)
  · exact M.users_value _ (List.mem_of_mem_head? M.first_mem)

theorem isValue_folder (asked : List Text) {p : Text} (hp : IsValue p) :
    IsValue (M.folder asked p) := by
  rw [folder]
  split
  · exact hp
  · split
    · exact hp
    · rename_i hne
      exact (M.readlink_value p).resolve_left hne

theorem plain_spit (asked : List Text) {m : Module} (hm : m.Plain) :
    (M.spit asked m.seenOpts).Plain := by
  have hname : m.seenOpts "share_name".toList = m.name := if_pos rfl
  have hcmt : m.seenOpts "comment".toList ≠ [] → IsValue (m.seenOpts "comment".toList) :=
    hm.isValue_seenOpts .comment
  rw [spit, hname]
  split
  · exact ⟨fun hne => absurd rfl hne, fun _ => hm.name, hcmt, M.isValue_pick _⟩
  · rename_i hpath
    exact ⟨fun _ => M.isValue_folder asked (hm.isValue_seenOpts .path hpath), fun _ => hm.name,
      hcmt, M.isValue_pick _⟩

/-- A row without a module. -/
theorem plain_spit_noOpts (asked : List Text) : (M.spit asked noOpts).Plain :=
  ⟨fun hne => absurd rfl hne, fun hne => absurd rfl hne, fun hne => absurd rfl hne,
    M.isValue_pick _⟩

theorem exists_of_mem_rows {f : Form} {rows : List Opts} {asked : List Text}
    (h : f ∈ M.rows asked rows) : ∃ asked', ∃ opts ∈ rows, f = M.spit asked' opts := by
  induction rows generalizing asked with
  | nil => cases h
  | cons opts rows ih =>
      rcases List.mem_cons.mp h with rfl | h
      · exact ⟨asked, opts, List.mem_cons_self, rfl⟩
      · obtain ⟨asked', o, ho, hf⟩ := ih h
        exact ⟨asked', o, List.mem_cons_of_mem opts ho, hf⟩

theorem exists_mem_rows {opts : Opts} {rows : List Opts} (h : opts ∈ rows) (asked : List Text) :
    ∃ asked', M.spit asked' opts ∈ M.rows asked rows := by
  induction rows generalizing asked with
  | nil => cases h
  | cons o rows ih =>
      rcases List.mem_cons.mp h with rfl | h
      · exact ⟨asked, List.mem_cons_self⟩
      · obtain ⟨asked', hmem⟩ := ih h _
        exact ⟨asked', List.mem_cons_of_mem _ hmem⟩

theorem plain_page (c : Conf) : ∀ f ∈ M.page c.text, f.Plain := by
  intro f hf
  obtain ⟨asked, opts, hopts, rfl⟩ := M.exists_of_mem_rows hf
  rw [parse_text] at hopts
  rcases List.mem_append.mp hopts with hmem | hmem
  · obtain ⟨m, hm, rfl⟩ := List.mem_map.mp hmem
    exact M.plain_spit asked (c.plain_modules m hm)
  · rw [List.eq_of_mem_replicate hmem]
    exact M.plain_spit_noOpts asked

end Machine

end AltF.Cgi.Rsync
