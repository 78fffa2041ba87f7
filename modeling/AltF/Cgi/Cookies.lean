/-
  Cgi/Cookies.lean --- common.sh: `check_cookie`, for a browser that sends more than one
  cookie.

  The id is what one substitution leaves of the whole header.  It drops what stands behind
  the id, and keeps what stands in front of its name.
-/
import AltF.Cgi.Session

set_option autoImplicit false

namespace AltF.Cgi

open AltF.Shell AltF.SysFiles

/-! ## Headers -/

/-- The site of a browser: no file in the directory of the scripts has `=` in its name. -/
structure CookieSite extends Site where
  echoes : Echoes echo
  files : ∀ {w : Text}, '=' ∈ w → glob w = [w]

structure Cookie where
  name : Text
  value : Text
  deriving DecidableEq, Repr

/-- name=value -/
def Cookie.text (k : Cookie) : Text := k.name ++ '=' :: k.value

/-- The `=` behind the name is the first one, and there are no blanks and semicolons. -/
structure Cookie.Sent (k : Cookie) : Prop where
  name : '=' ∉ k.name
  chars : ∀ c ∈ k.text, isBlank c = false ∧ c ≠ ';'

/-- `HTTP_COOKIE` -/
def headerText (ks : List Cookie) : Text := "; ".toList.intercalate (ks.map Cookie.text)

/-- The name of the cookie of login_proc.cgi. -/
def altfidName : Text := "ALTFID".toList

/-- Cookies with one of the name ALTFID, whose value is `id`. -/
structure CookieHeader (id : Text) where
  cookies : List Cookie
  sent : ∀ k ∈ cookies, k.Sent
  own : (cookies.filter fun k => k.name = altfidName) = [⟨altfidName, id⟩]

def CookieHeader.text {id : Text} (h : CookieHeader id) : Text := headerText h.cookies

/-- A character that uuidgen prints. -/
def isUuidChar (c : Char) : Bool := c.isAlphanum || c == '-'

/-- The session of `id`, less than half an hour old. -/
structure Current (s : Server) (now : Int) (id : Text) : Prop where
  cookie : ∃ time, s.cookie = some (id ++ ['\n'], time) ∧ now - time < 1800
  some : id ≠ []
  uuid : ∀ c ∈ id, isUuidChar c = true

/-- The request is let through, and the session is younger behind it. -/
def Site.LetsThrough (m : Site) (s : Server) (now : Int) (httpCookie : Text) : Prop :=
  ∀ page : Server → Server, m.guarded s now httpCookie page = page (Site.touch s now)

/-- The condition on the first cookie: what its name has in front of ALTFID, with its value
behind that, is the id. -/
def CookieHeader.Leads {id : Text} (h : CookieHeader id) : Prop :=
  ∃ k ∈ h.cookies.head?, ∃ p, k.name = p ++ altfidName ∧ p ++ k.value.takeWhile isIdChar = id

/-! ## The substitution -/

/-- The match is where `ALTFID=` ends in the first `=`. -/
theorem sedAltfid_named {p : Text} (hp : '=' ∉ p) (t : Text) :
    sedAltfid (p ++ altfidName ++ '=' :: t) = some (p ++ t.takeWhile isIdChar) := by
  induction p with
  | nil => rfl
  | cons c p ih =>
      have hlater : ¬ "ALTFID=".toList.isPrefixOf (c :: (p ++ altfidName ++ '=' :: t)) = true := by
        rw [List.isPrefixOf_iff_prefix]
        rintro ⟨u, hu⟩
        have hequal : altfidName = c :: p ++ altfidName := by
          refine eq_of_append_cons (c := '=') (s := u) (r := t) ?_ (Or.inl (by decide)) hu
          rw [List.mem_append, not_or]
          exact ⟨hp, by decide⟩
        have hlength := congrArg List.length hequal
        rw [List.cons_append, List.length_cons, List.length_append] at hlength
        omega
      rw [List.cons_append, List.cons_append, sedAltfid, if_neg hlater,
        ih fun h => hp (List.mem_cons_of_mem c h)]
      rfl

/-- Behind a first name that does not end in ALTFID, the `=` is left. -/
theorem equals_mem_sedAltfid {n t s : Text} (hn : '=' ∉ n) (hname : ¬ altfidName <:+ n)
    (hs : sedAltfid (n ++ '=' :: t) = some s) : '=' ∈ s := by
  induction n generalizing s with
  | nil =>
      have hfirst : ¬ "ALTFID=".toList.isPrefixOf ('=' :: t) = true := nofun
      rw [List.nil_append, sedAltfid, if_neg hfirst] at hs
      obtain ⟨r, -, rfl⟩ := Option.map_eq_some_iff.mp hs
      exact List.mem_cons_self
  | cons c n ih =>
      have hfirst : ¬ "ALTFID=".toList.isPrefixOf (c :: (n ++ '=' :: t)) = true := by
        rw [List.isPrefixOf_iff_prefix]
        rintro ⟨u, hu⟩
        have hequal : altfidName = c :: n :=
          eq_of_append_cons (c := '=') (s := u) (r := t) hn (Or.inl (by decide)) hu
        exact hname (hequal ▸ List.suffix_refl _)
      rw [List.cons_append, sedAltfid, if_neg hfirst] at hs
      obtain ⟨r, hr, rfl⟩ := Option.map_eq_some_iff.mp hs
      refine List.mem_cons_of_mem c (ih (fun h => hn (List.mem_cons_of_mem c h)) ?_ hr)
      exact fun h => hname (h.trans (List.suffix_cons c n))

theorem mem_of_mem_sedAltfid {l s : Text} (hs : sedAltfid l = some s) {c : Char} (hc : c ∈ s) :
    c ∈ l := by
  induction l generalizing s with
  | nil => cases hs
  | cons d l ih =>
      rw [sedAltfid] at hs
      split at hs
      · cases hs
        exact List.mem_of_mem_drop ((List.takeWhile_prefix _).subset hc)
      · obtain ⟨r, hr, rfl⟩ := Option.map_eq_some_iff.mp hs
        rcases List.mem_cons.mp hc with rfl | hc
        · exact List.mem_cons_self
        · exact List.mem_cons_of_mem d (ih hr hc)

/-- The value ends where the next cookie begins. -/
theorem takeWhile_value (v : Text) {r : Text} (hr : ∀ c ∈ r.head?, c = ';') :
    (v ++ r).takeWhile isIdChar = v.takeWhile isIdChar := by
  induction v with
  | nil =>
      cases r with
      | nil => rfl
      | cons c r =>
          rw [hr c rfl]
          rfl
  | cons c v ih => rw [List.cons_append, List.takeWhile_cons, List.takeWhile_cons, ih]

/-! ## The header on its way to sed -/

theorem headerText_cons (k k' : Cookie) (ks : List Cookie) :
    headerText (k :: k' :: ks) = (k.text ++ [';']) ++ ' ' :: headerText (k' :: ks) := by
  rw [headerText, List.map_cons, List.map_cons, List.intercalate_cons_cons, ← List.map_cons,
    ← headerText, List.append_assoc, List.append_assoc]
  rfl

theorem headerText_singleton (k : Cookie) : headerText [k] = k.text := by
  rw [headerText, List.map_singleton, List.intercalate_singleton]

/-- A first cookie, and a semicolon behind it if there are more. -/
theorem headerText_eq (k : Cookie) (ks : List Cookie) :
    ∃ r, headerText (k :: ks) = k.name ++ '=' :: (k.value ++ r) ∧ ∀ c ∈ r.head?, c = ';' := by
  cases ks with
  | nil =>
      refine ⟨[], ?_, nofun⟩
      rw [headerText_singleton, List.append_nil]
      rfl
  | cons k' ks =>
      refine ⟨';' :: ' ' :: headerText (k' :: ks), ?_, ?_⟩
      · rw [headerText_cons, Cookie.text]
        simp only [List.append_assoc, List.cons_append, List.nil_append]
      · rintro c ⟨⟩
        rfl

theorem equals_mem_text (k : Cookie) : '=' ∈ k.text :=
  List.mem_append_right _ List.mem_cons_self

theorem text_ne_nil (k : Cookie) : k.text ≠ [] := List.ne_nil_of_mem (equals_mem_text k)

/-- The words are the cookies: each has its `=`, and joined they are the header again. -/
theorem words_headerText {ks : List Cookie} (hks : ∀ k ∈ ks, k.Sent) :
    (∀ w ∈ words (headerText ks), '=' ∈ w) ∧ join (words (headerText ks)) = headerText ks ∧
      (ks ≠ [] → words (headerText ks) ≠ []) := by
  induction ks with
  | nil => exact ⟨nofun, rfl, fun h => absurd rfl h⟩
  | cons k ks ih =>
      obtain ⟨hequals, hjoin, hne⟩ := ih fun x hx => hks x (List.mem_cons_of_mem k hx)
      have hsolid := (hks k List.mem_cons_self).chars
      cases ks with
      | nil =>
          rw [headerText_singleton, words_eq_singleton (text_ne_nil k) fun c hc => (hsolid c hc).1]
          exact ⟨by simpa using equals_mem_text k, join_singleton _, fun _ => List.cons_ne_nil _ _⟩
      | cons k' ks =>
          have hword : words (k.text ++ [';']) = [k.text ++ [';']] := by
            refine words_eq_singleton (by simp) fun c hc => ?_
            rcases List.mem_append.mp hc with hc | hc
            · exact (hsolid c hc).1
            · rw [List.mem_singleton.mp hc]
              rfl
          rw [headerText_cons, words_append_cons _ _ rfl, hword, List.singleton_append,
            join_cons _ (hne (List.cons_ne_nil _ _)), hjoin]
          refine ⟨fun w hw => ?_, rfl, fun _ => List.cons_ne_nil _ _⟩
          rcases List.mem_cons.mp hw with rfl | hw
          · exact List.mem_append_left _ (equals_mem_text k)
          · exact hequals w hw

theorem newline_notMem_headerText {ks : List Cookie} (hks : ∀ k ∈ ks, k.Sent) :
    '\n' ∉ headerText ks := by
  intro hnl
  rw [← (words_headerText hks).2.1] at hnl
  obtain ⟨w, hw, hc⟩ := mem_of_mem_join hnl (by decide)
  exact absurd (not_blank_of_mem_words hw _ hc) (by decide)

section Guard

variable (m : CookieSite)

/-- `echo $HTTP_COOKIE` -/
theorem CookieSite.echo_headerText {ks : List Cookie} (hks : ∀ k ∈ ks, k.Sent) :
    m.echo (expand m.glob (headerText ks)) = headerText ks ++ ['\n'] := by
  obtain ⟨hequals, hjoin, -⟩ := words_headerText hks
  rw [expand_of_kept fun w hw => m.files (hequals w hw), m.echoes.plain, hjoin]
  exact fun w hw => isEchoOption_of_mem (hequals w (List.mem_of_mem_head? hw)) (by decide)

/-- `ALTFID` is what the substitution makes of the header. -/
theorem CookieSite.altfid_headerText {ks : List Cookie} (hks : ∀ k ∈ ks, k.Sent) :
    m.altfid (headerText ks) = (sedAltfid (headerText ks)).getD [] := by
  have hnl := newline_notMem_headerText hks
  have hlines : splitLines (headerText ks ++ ['\n']) = [headerText ks ++ ['\n']] :=
    splitLines_singleton hnl
  have hline : (headerText ks ++ ['\n']).filter (· ≠ '\n') = headerText ks := by
    rw [List.filter_append, List.filter_eq_self.mpr]
    · exact List.append_nil _
    · intro c hc
      exact decide_eq_true fun h => hnl (h ▸ hc)
  rw [Site.altfid, m.echo_headerText hks, hlines, List.flatMap_singleton, hline]
  cases hsed : sedAltfid (headerText ks) with
  | none => rfl
  | some s =>
      have hs : '\n' ∉ s := fun hc => hnl (mem_of_mem_sedAltfid hsed hc)
      exact (commandSubst_append_newline s).trans (commandSubst_of_not_mem hs)

end Guard

/-! ## Who is let through -/

/-- The page sees the touched session exactly when the test succeeds. -/
theorem Site.letsThrough_iff (m : Site) (s : Server) (now : Int) (httpCookie : Text) :
    m.LetsThrough s now httpCookie ↔ m.passes s now httpCookie = true := by
  constructor
  · intro h
    by_contra hfails
    -- a page that leaves something else than a refusal
    have hpage := h fun _ => { s with salt := 'x' :: s.salt }
    rw [Site.guarded, if_neg hfails] at hpage
    have hrefuse : (Site.refuse s httpCookie).salt = s.salt := by
      unfold Site.refuse
      split <;> rfl
    exact absurd (hrefuse.symm.trans (congrArg Server.salt hpage)).symm (List.cons_ne_self _ _)
  · intro h page
    rw [Site.guarded, if_pos h]

theorem isIdChar_of_isUuidChar {c : Char} (hc : isUuidChar c = true) :
    isIdChar c = true ∧ c ≠ '=' ∧ c ≠ '\n' := by
  have hothers : ∀ d ∈ " \t\n\x0b\x0c\r,;=".toList, isUuidChar d = false :=
    forall_of_all (by decide)
  have hne : ∀ d ∈ " \t\n\x0b\x0c\r,;=".toList, c ≠ d := fun d hd h =>
    absurd ((hothers d hd).symm.trans (h ▸ hc)) Bool.false_ne_true
  refine ⟨?_, hne '=' (by decide), hne '\n' (by decide)⟩
  rw [isIdChar, Bool.not_eq_true', Bool.eq_false_iff, ne_eq, List.contains_iff_mem]
  intro hmem
  refine hne c (List.mem_of_mem_dropLast (l := " \t\n\x0b\x0c\r,;=".toList) ?_) rfl
  exact hmem

theorem Current.passes_iff {s : Server} {now : Int} {id : Text} (hs : Current s now id)
    (m : Site) {httpCookie : Text} (hne : httpCookie ≠ []) :
    m.passes s now httpCookie = true ↔ m.altfid httpCookie = id := by
  obtain ⟨time, hcookie, hyoung⟩ := hs.cookie
  have hnl : '\n' ∉ id := fun h => (isIdChar_of_isUuidChar (hs.uuid _ h)).2.2 rfl
  have hcontent : commandSubst (id ++ ['\n']) = id := by
    rw [commandSubst_append_newline, commandSubst_of_not_mem hnl]
  rw [m.passes_iff]
  constructor
  · rintro ⟨content, time', hsome, -, -, -, hid⟩
    obtain ⟨rfl, -⟩ := Prod.mk.inj (Option.some.inj (hcookie.symm.trans hsome))
    rw [← hid, hcontent]
  · intro hid
    exact ⟨_, time, hcookie, hne, by rw [hid]; exact hs.some, hyoung, by rw [hid, hcontent]⟩

section Headers

variable {id : Text} (h : CookieHeader id)

theorem CookieHeader.cookies_ne_nil : h.cookies ≠ [] := by
  intro hnil
  have hown := h.own
  rw [hnil] at hown
  cases hown

/-- What `check_cookie` takes for the id. -/
theorem CookieHeader.altfid_iff (m : CookieSite) {s : Server} {now : Int} (hs : Current s now id) :
    m.altfid h.text = id ↔ h.Leads := by
  rw [CookieHeader.text, m.altfid_headerText h.sent]
  have hfirst := h.sent
  unfold CookieHeader.Leads
  cases hcookies : h.cookies with
  | nil => exact absurd hcookies h.cookies_ne_nil
  | cons k ks =>
      rw [hcookies] at hfirst
      have hk := hfirst k List.mem_cons_self
      obtain ⟨r, hheader, hr⟩ := headerText_eq k ks
      rw [hheader]
      constructor
      · intro hid
        have hsuffix : altfidName <:+ k.name := by
          by_contra hname
          cases hsed : sedAltfid (k.name ++ '=' :: (k.value ++ r)) with
          | none =>
              rw [hsed] at hid
              exact hs.some hid.symm
          | some t =>
              rw [hsed, Option.getD_some] at hid
              have hequal : '=' ∈ id := hid ▸ equals_mem_sedAltfid hk.name hname hsed
              exact (isIdChar_of_isUuidChar (hs.uuid _ hequal)).2.1 rfl
        obtain ⟨p, hp⟩ := hsuffix
        have hequals : '=' ∉ p := fun hc => hk.name (hp ▸ List.mem_append_left _ hc)
        rw [← hp, sedAltfid_named hequals, takeWhile_value k.value hr] at hid
        exact ⟨k, rfl, p, hp.symm, hid⟩
      · rintro ⟨k', hk', p, hname, hid⟩
        obtain rfl : k = k' := Option.some.inj hk'
        have hequals : '=' ∉ p := fun hc => hk.name (hname ▸ List.mem_append_left _ hc)
        rw [hname, sedAltfid_named hequals, takeWhile_value k.value hr, Option.getD_some, hid]

theorem CookieHeader.text_ne_nil : h.text ≠ [] := by
  rw [CookieHeader.text]
  cases hcookies : h.cookies with
  | nil => exact absurd hcookies h.cookies_ne_nil
  | cons k ks =>
      obtain ⟨r, hheader, -⟩ := headerText_eq k ks
      rw [hheader]
      exact List.append_ne_nil_of_right_ne_nil _ (List.cons_ne_nil _ _)

/-- **The session among other cookies** is recognised exactly when the first cookie leads
to it. -/
theorem CookieHeader.letsThrough_iff_leads (m : CookieSite) {s : Server} {now : Int}
    (hs : Current s now id) : m.LetsThrough s now h.text ↔ h.Leads := by
  rw [Site.letsThrough_iff, hs.passes_iff _ h.text_ne_nil, h.altfid_iff m hs]

end Headers

/-- A browser at the box whose password is `secret`. -/
def secretCookieSite : CookieSite where
  toSite := secretSite
  echoes := ⟨fun _ => rfl⟩
  files := fun _ => rfl

theorem current_loggedIn : Current loggedIn 60 "c0ffee".toList where
  cookie := ⟨0, by decide +kernel, by decide⟩
  some := by decide
  uuid := forall_of_all (by decide)

/-- The cookie of another program, in front of that of the session or behind it. -/
def langCookie : Cookie := ⟨"lang".toList, "en".toList⟩

def sessionCookie : Cookie := ⟨altfidName, "c0ffee".toList⟩

theorem langCookie_sent : langCookie.Sent where
  name := by decide
  chars := forall_of_all (by decide)

theorem sessionCookie_sent : sessionCookie.Sent where
  name := by decide
  chars := forall_of_all (by decide)

def sessionFirst : CookieHeader "c0ffee".toList where
  cookies := [sessionCookie, langCookie]
  sent := by
    rintro k hk
    rcases List.mem_pair.mp hk with rfl | rfl
    · exact sessionCookie_sent
    · exact langCookie_sent
  own := by decide

def sessionSecond : CookieHeader "c0ffee".toList where
  cookies := [langCookie, sessionCookie]
  sent := by
    rintro k hk
    rcases List.mem_pair.mp hk with rfl | rfl
    · exact langCookie_sent
    · exact sessionCookie_sent
  own := by decide

theorem letsThrough_sessionFirst :
    secretCookieSite.LetsThrough loggedIn 60 "ALTFID=c0ffee; lang=en".toList :=
  (sessionFirst.letsThrough_iff_leads secretCookieSite current_loggedIn).mpr
    ⟨sessionCookie, rfl, [], by decide, by decide⟩

/-- With `lang=en` in front, the id is `lang=en; c0ffee`. -/
theorem not_letsThrough_sessionSecond :
    ¬ ∀ (m : CookieSite) (s : Server) (now : Int) (id : Text) (h : CookieHeader id),
      Current s now id → m.LetsThrough s now h.text := by
  intro hall
  have hpasses := (Site.letsThrough_iff _ _ _ _).mp
    (hall secretCookieSite loggedIn 60 _ sessionSecond current_loggedIn)
  have hfails : secretCookieSite.passes loggedIn 60 sessionSecond.text = false := by
    decide +kernel
  exact Bool.false_ne_true (hfails.symm.trans hpasses)

end AltF.Cgi
