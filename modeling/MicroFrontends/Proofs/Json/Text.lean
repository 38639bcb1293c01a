import MicroFrontends.Json.Render
import MicroFrontends.Json.Text
import MicroFrontends.Proofs.Json.Reader

/-!
# Texts in quotes

`Quoted t` says that `t` is what stands after an opening quote, up to the closing one. Whether it is
read or skipped, only `t` is used up (`readText_quoted`, `skipText_quoted`), and a text that was
escaped is read back (`readText_escaped`).
-/

namespace MicroFrontends.Json

/-- The form of what follows an opening quote, with the closing quote. Escaped code points need not
be characters, and bytes that belong to no character may stand in it. -/
inductive Quoted : Document → Prop
  | close : Quoted [.char '"']
  | plain {c : Char} {t : Document} : c ≠ '"' → c ≠ '\\' → 0x20 ≤ c.toNat → Quoted t →
    Quoted (.char c :: t)
  | junk (b : UInt8) {t : Document} : Quoted t → Quoted (.junk b :: t)
  | escape {c : Char} {t : Document} : (simpleEscape? c).isSome → Quoted t →
    Quoted (.char '\\' :: .char c :: t)
  | codePoint {a b c e : Char} {t : Document} : (hexValue4? a b c e).isSome → Quoted t →
    Quoted (.char '\\' :: .char 'u' :: .char a :: .char b :: .char c :: .char e :: t)

/-! ## Skipping -/

theorem skipText_plain {c : Char} (hq : c ≠ '"') (hb : c ≠ '\\') (hc : 0x20 ≤ c.toNat)
    (d : Document) : skipText (.char c :: d) = skipText d := by
  rw [skipText, if_neg (Nat.not_lt.mpr hc)]
  all_goals grind

theorem ne_of_simpleEscape? {c : Char} (h : (simpleEscape? c).isSome) : c ≠ 'u' := by
  rintro rfl
  cases h

theorem skipText_quoted {t : Document} (h : Quoted t) (rest : Document) :
    skipText (t ++ rest) = .ok rest := by
  induction h with
  | close => rfl
  | plain hq hb hc h ih => exact (skipText_plain hq hb hc _).trans ih
  | junk b h ih => exact ih
  | escape he h ih =>
    have hu := ne_of_simpleEscape? he
    rw [List.cons_append, List.cons_append, skipText, if_pos he]
    · exact ih
    all_goals grind
  | codePoint hx h ih =>
    obtain ⟨n, hn⟩ := Option.isSome_iff_exists.mp hx
    simp only [List.cons_append]
    rw [skipText, hn]
    exact ih

/-! ## Reading -/

theorem readLowSurrogate_quoted {t : Document} (h : Quoted t) (high : Nat) :
    (∀ rest, (readLowSurrogate high (t ++ rest)).toOption = none) ∨
      ∃ c t', t'.length < t.length ∧ Quoted t' ∧
        ∀ rest, readLowSurrogate high (t ++ rest) = .ok (c, t' ++ rest) := by
  cases h with
  | close => exact .inl fun _ => rfl
  | plain hq hb hc h =>
    left
    intro rest
    rw [List.cons_append, readLowSurrogate]
    · rfl
    all_goals grind
  | junk b h => exact .inl fun _ => rfl
  | escape he h =>
    have hu := ne_of_simpleEscape? he
    left
    intro rest
    rw [List.cons_append, List.cons_append, readLowSurrogate]
    · rfl
    all_goals grind
  | @codePoint a b c e t hx h =>
    obtain ⟨n, hn⟩ := Option.isSome_iff_exists.mp hx
    have hread (rest : Document) : readLowSurrogate high
        (.char '\\' :: .char 'u' :: .char a :: .char b :: .char c :: .char e :: t ++ rest) =
          if isLowSurrogate n then .ok (ofSurrogates high n, t ++ rest)
          else blameLast .loneSurrogate (t ++ rest) := by
      show (readHex (.char a :: .char b :: .char c :: .char e :: (t ++ rest)) >>= _) = _
      rw [readHex, hn]
      rfl
    by_cases hl : isLowSurrogate n
    · exact .inr ⟨_, t, by simp only [List.length_cons]; omega, h, fun rest => by
        rw [hread, if_pos hl]⟩
    · exact .inl fun rest => by rw [hread, if_neg hl]; rfl

/-- What comes after a backslash in a text stands for a character, or for none, whatever comes after
the text. -/
theorem readEscape_quoted {t : Document} (h : Quoted (.char '\\' :: t)) :
    (∀ rest, (readEscape (t ++ rest)).toOption = none) ∨
      ∃ c t', t'.length < t.length ∧ Quoted t' ∧
        ∀ rest, readEscape (t ++ rest) = .ok (c, t' ++ rest) := by
  cases h with
  | plain hq hb hc h => exact absurd rfl hb
  | @escape c t he h =>
    obtain ⟨e, hc⟩ := Option.isSome_iff_exists.mp he
    have hu := ne_of_simpleEscape? he
    refine .inr ⟨e, t, by simp, h, fun rest => ?_⟩
    rw [List.cons_append, readEscape, hc]
    exact fun h => hu h
  | @codePoint a b c e t hx h =>
    obtain ⟨n, hn⟩ := Option.isSome_iff_exists.mp hx
    have hread (rest : Document) : readEscape
        (.char 'u' :: .char a :: .char b :: .char c :: .char e :: t ++ rest) =
          if isLowSurrogate n then blameLast .loneSurrogate (t ++ rest)
          else if isHighSurrogate n then readLowSurrogate n (t ++ rest)
          else .ok (.ofNat n, t ++ rest) := by
      show (readHex (.char a :: .char b :: .char c :: .char e :: (t ++ rest)) >>= _) = _
      rw [readHex, hn]
      rfl
    by_cases hl : isLowSurrogate n
    · exact .inl fun rest => by rw [hread, if_pos hl]; rfl
    by_cases hh : isHighSurrogate n
    · rcases readLowSurrogate_quoted h n with hnone | ⟨c', t', hlt, ht', hok⟩
      · exact .inl fun rest => by rw [hread, if_neg hl, if_pos hh, hnone]
      · refine .inr ⟨c', t', by simp only [List.length_cons]; omega, ht', fun rest => ?_⟩
        rw [hread, if_neg hl, if_pos hh, hok]
    · exact .inr ⟨_, t, by simp only [List.length_cons]; omega, h, fun rest => by
        rw [hread, if_neg hl, if_neg hh]⟩

/-- The same text with something else after it. -/
def Scanned.before (rest : Document) (s : Scanned) : Scanned := { s with rest := rest }

theorem toOption_scanText_escape (d : Document) : (scanText (.char '\\' :: d)).toOption =
    (readEscape d).toOption.bind fun p => (scanText p.2).toOption.map (·.push p.1) := by
  rw [scanText]
  split
  · next h => rw [h]; rfl
  · next h => rw [h, Except.toOption_map]; rfl

theorem scanText_quoted {t : Document} (h : Quoted t) :
    ∃ x : Option Scanned, ∀ rest, (scanText (t ++ rest)).toOption = x.map (·.before rest) := by
  induction hn : t.length using Nat.strongRecOn generalizing t with
  | ind n ih =>
    subst hn
    -- an escaped character and one by its code point differ only in how long they are
    have hescape (u : Document) (ht : t = .char '\\' :: u) :
        ∃ x : Option Scanned, ∀ rest, (scanText (t ++ rest)).toOption = x.map (·.before rest) := by
      subst ht
      rcases readEscape_quoted h with hnone | ⟨c, t', hlt, ht', hok⟩
      · exact ⟨none, fun rest => by rw [List.cons_append, toOption_scanText_escape, hnone]; rfl⟩
      · obtain ⟨x, hx⟩ := ih _ (Nat.lt_succ_of_lt hlt) ht' rfl
        refine ⟨x.map (·.push c), fun rest => ?_⟩
        rw [List.cons_append, toOption_scanText_escape, hok, Except.toOption_ok, Option.bind_some, hx,
          Option.map_map, Option.map_map]
        rfl
    cases h with
    | close => exact ⟨some ⟨[], 0, none, []⟩, fun rest => by rw [List.cons_append, scanText]; rfl⟩
    | @plain c t hq hb hc ht =>
      obtain ⟨x, hx⟩ := ih _ (Nat.lt_succ_self _) ht rfl
      refine ⟨x.map (·.push c), fun rest => ?_⟩
      rw [List.cons_append, scanText, if_neg (Nat.not_lt.mpr hc), Except.toOption_map, hx,
        Option.map_map, Option.map_map]
      · rfl
      all_goals grind
    | @junk b t ht =>
      obtain ⟨x, hx⟩ := ih _ (Nat.lt_succ_self _) ht rfl
      refine ⟨x.map Scanned.spoil, fun rest => ?_⟩
      rw [List.cons_append, scanText, Except.toOption_map, hx, Option.map_map, Option.map_map]
      rfl
    | escape he ht => exact hescape _ rfl
    | codePoint hx ht => exact hescape _ rfl

/-- Of what stands up to the closing quote the same text is read whatever follows. -/
theorem readText_quoted {t : Document} (h : Quoted t) (rest : Document) :
    (readText (t ++ rest)).toOption = (whole? readText t).map (·, rest) := by
  obtain ⟨x, hx⟩ := scanText_quoted h
  have hread (rest : Document) : (readText (t ++ rest)).toOption =
      x.bind fun s => if s.spoilt?.isSome then none else some (String.ofList s.chars, rest) := by
    rw [readText, Except.toOption_bind, hx]
    cases x with
    | none => rfl
    | some s => cases hs : s.spoilt? <;> simp [Scanned.before, hs]
  have halone := hread []
  rw [List.append_nil] at halone
  rw [whole?, hread, halone]
  cases x with
  | none => rfl
  | some s => cases hs : s.spoilt? <;> simp [hs]

/-! ## What is read has the form of a text -/

theorem form_of_readHex {d rest : Document} {n : Nat} (h : readHex d = .ok (n, rest)) :
    ∃ a b c e, d = .char a :: .char b :: .char c :: .char e :: rest ∧
      (hexValue4? a b c e).isSome := by
  unfold readHex at h
  split at h
  · split at h
    · next hx =>
      cases h
      exact ⟨_, _, _, _, rfl, by rw [hx]; rfl⟩
    · unfold blameHex at h; split at h <;> cases h
  · unfold blameHex at h; split at h <;> cases h

theorem form_of_readLowSurrogate {d rest : Document} {high : Nat} {ch : Char}
    (h : readLowSurrogate high d = .ok (ch, rest)) :
    ∃ u, d = u ++ rest ∧ ∀ {t}, Quoted t → Quoted (u ++ t) := by
  unfold readLowSurrogate at h
  split at h
  · obtain ⟨⟨low, r⟩, hhex, hlow⟩ := Except.bind_eq_ok.mp h
    obtain ⟨a, b, c, e, rfl, hx⟩ := form_of_readHex hhex
    dsimp only at hlow
    split at hlow
    · obtain ⟨-, rfl⟩ := Prod.mk.inj (Except.ok.inj hlow)
      exact ⟨[_, _, _, _, _, _], rfl, fun ht => .codePoint hx ht⟩
    · cases hlow
  all_goals cases h

/-- What is read after a backslash can stand before the rest of any text. -/
theorem form_of_readEscape {d rest : Document} {ch : Char} (h : readEscape d = .ok (ch, rest)) :
    ∃ u, d = u ++ rest ∧ ∀ {t}, Quoted t → Quoted (.char '\\' :: u ++ t) := by
  unfold readEscape at h
  split at h
  · cases h
  · obtain ⟨⟨n, r⟩, hhex, hn⟩ := Except.bind_eq_ok.mp h
    obtain ⟨a, b, c, e, rfl, hx⟩ := form_of_readHex hhex
    dsimp only at hn
    split at hn
    · cases hn
    split at hn
    · obtain ⟨u, rfl, hu⟩ := form_of_readLowSurrogate hn
      exact ⟨.char 'u' :: .char a :: .char b :: .char c :: .char e :: u, rfl,
        fun ht => .codePoint hx (hu ht)⟩
    · cases hn
      exact ⟨[_, _, _, _, _], rfl, fun ht => .codePoint hx ht⟩
  · split at h
    · next he =>
      cases h
      exact ⟨[_], rfl, fun ht => .escape (by rw [he]; rfl) ht⟩
    · cases h
  · cases h

theorem quoted_of_scanText {d : Document} {s : Scanned} (h : scanText d = .ok s) :
    ∃ t, d = t ++ s.rest ∧ Quoted t := by
  induction hn : d.length using Nat.strongRecOn generalizing d s with
  | ind n ih =>
    subst hn
    unfold scanText at h
    split at h
    · cases h
    · cases h
      exact ⟨[_], rfl, .close⟩
    · split at h
      · cases h
      · next hread =>
        obtain ⟨s', hs', rfl⟩ := Except.map_eq_ok.mp h
        obtain ⟨t, ht, hq⟩ := ih _ (Nat.lt_succ_of_lt (readEscape_length hread)) hs' rfl
        obtain ⟨u, rfl, hu⟩ := form_of_readEscape hread
        exact ⟨_ :: u ++ t, by rw [ht]; simp [Scanned.push], hu hq⟩
    · next hquote hbackslash =>
      split at h
      · cases h
      next hge =>
        obtain ⟨s', hs', rfl⟩ := Except.map_eq_ok.mp h
        obtain ⟨t, rfl, hq⟩ := ih _ (Nat.lt_succ_self _) hs' rfl
        exact ⟨_ :: t, rfl, .plain hquote hbackslash (Nat.le_of_not_lt hge) hq⟩
    · obtain ⟨s', hs', rfl⟩ := Except.map_eq_ok.mp h
      obtain ⟨t, rfl, hq⟩ := ih _ (Nat.lt_succ_self _) hs' rfl
      exact ⟨_ :: t, rfl, .junk _ hq⟩

theorem quoted_of_readText {d rest : Document} {s : String} (h : readText d = .ok (s, rest)) :
    ∃ t, d = t ++ rest ∧ Quoted t := by
  obtain ⟨scanned, hscan, h⟩ := Except.bind_eq_ok.mp h
  obtain ⟨t, rfl, hq⟩ := quoted_of_scanText hscan
  split at h
  · cases h
  · cases h
    exact ⟨t, rfl, hq⟩

theorem quoted_of_skipText {d rest : Document} (h : skipText d = .ok rest) :
    ∃ t, d = t ++ rest ∧ Quoted t := by
  induction hn : d.length using Nat.strongRecOn generalizing d with
  | ind n ih =>
    subst hn
    unfold skipText at h
    split at h
    · cases h
    · cases h
      exact ⟨[_], rfl, .close⟩
    · cases h
    · split at h
      · next hx =>
        obtain ⟨t, rfl, hq⟩ := ih _ (by simp only [List.length_cons]; omega) h rfl
        exact ⟨_ :: _ :: _ :: _ :: _ :: _ :: t, rfl, .codePoint (by rw [hx]; rfl) hq⟩
      · unfold blameHex at h; split at h <;> cases h
    · unfold blameHex at h; split at h <;> cases h
    · split at h
      · next he =>
        obtain ⟨t, rfl, hq⟩ := ih _ (by simp only [List.length_cons]; omega) h rfl
        exact ⟨_ :: _ :: t, rfl, .escape he hq⟩
      · cases h
    · cases h
    · next hquote _ _ _ _ hbackslash =>
      split at h
      · cases h
      next hge =>
        obtain ⟨t, rfl, hq⟩ := ih _ (Nat.lt_succ_self _) h rfl
        exact ⟨_ :: t, rfl, .plain hquote hbackslash (Nat.le_of_not_lt hge) hq⟩
    · obtain ⟨t, rfl, hq⟩ := ih _ (Nat.lt_succ_self _) h rfl
      exact ⟨_ :: t, rfl, .junk _ hq⟩

/-! ## Escaped texts -/

/-- A text as it stands after an opening quote, with the closing one. -/
def escaped (cs : List Char) : Document := (cs.flatMap escape).map .char ++ [.char '"']

theorem escaped_cons (c : Char) (cs : List Char) :
    escaped (c :: cs) = (escape c).map .char ++ escaped cs := by
  simp [escaped]

theorem hexValue4?_hexPair : ∀ n < 0x20,
    hexValue4? '0' '0' (Nat.digitChar (n / 16)) (Nat.digitChar (n % 16)) = some n := by decide

theorem ofDocument_quote (s : String) :
    Document.ofText (quote s) = .char '"' :: escaped s.toList := by
  simp [Document.ofText, quote, escaped]

/-- The ways in which a character can stand in a text. -/
theorem escape_cases (c : Char) :
    (∃ e, escape c = ['\\', e] ∧ simpleEscape? e = some c) ∨
      (c.toNat < 0x20 ∧ escape c = ['\\', 'u', '0', '0'] ++ hexPair c.toNat) ∨
      (escape c = [c] ∧ c ≠ '"' ∧ c ≠ '\\' ∧ 0x20 ≤ c.toNat) := by
  unfold escape
  iterate 7
    split
    · next h => subst h; exact .inl ⟨_, rfl, rfl⟩
  split
  · next h => exact .inr (.inl ⟨h, rfl⟩)
  · next hquote hbackslash _ _ _ _ _ h =>
    exact .inr (.inr ⟨rfl, hquote, hbackslash, Nat.le_of_not_lt h⟩)

theorem quoted_escaped (cs : List Char) : Quoted (escaped cs) := by
  induction cs with
  | nil => exact .close
  | cons c cs ih =>
    rw [escaped_cons]
    rcases escape_cases c with ⟨e, hc, he⟩ | ⟨hlt, hc⟩ | ⟨hc, hq, hb, hge⟩
    · rw [hc]
      exact .escape (by rw [he]; rfl) ih
    · rw [hc]
      exact .codePoint (by rw [hexValue4?_hexPair _ hlt]; rfl) ih
    · rw [hc]
      exact .plain hq hb hge ih

theorem toOption_scanText_escaped (cs : List Char) :
    ∃ size, (scanText (escaped cs)).toOption = some ⟨cs, size, none, []⟩ := by
  induction cs with
  | nil => exact ⟨0, by rw [escaped, List.flatMap_nil, List.map_nil, List.nil_append, scanText]; rfl⟩
  | cons c cs ih =>
    obtain ⟨size, ih⟩ := ih
    refine ⟨c.utf8Size + size, ?_⟩
    rw [escaped_cons]
    rcases escape_cases c with ⟨e, hc, he⟩ | ⟨hlt, hc⟩ | ⟨hc, hq, hb, hge⟩
    · have hread : readEscape (.char e :: escaped cs) = .ok (c, escaped cs) := by
        have hu : e ≠ 'u' := ne_of_simpleEscape? (by rw [he]; rfl)
        rw [readEscape, he]
        exact fun h => hu h
      rw [hc]
      show (scanText (.char '\\' :: .char e :: escaped cs)).toOption = _
      rw [toOption_scanText_escape, hread, Except.toOption_ok, Option.bind_some, ih]
      rfl
    · have hread : readEscape (.char 'u' :: .char '0' :: .char '0' ::
          .char (Nat.digitChar (c.toNat / 16)) :: .char (Nat.digitChar (c.toNat % 16)) ::
          escaped cs) = .ok (c, escaped cs) := by
        have hlow : isLowSurrogate c.toNat = false := by simp [isLowSurrogate]; omega
        have hhigh : isHighSurrogate c.toNat = false := by simp [isHighSurrogate]; omega
        show (readHex _ >>= _) = _
        rw [readHex, hexValue4?_hexPair _ hlt, Except.ok_bind]
        simp [hlow, hhigh, Char.ofNat_toNat]
        rfl
      rw [hc]
      show (scanText (.char '\\' :: .char 'u' :: .char '0' :: .char '0' ::
          .char (Nat.digitChar (c.toNat / 16)) :: .char (Nat.digitChar (c.toNat % 16)) ::
          escaped cs)).toOption = _
      rw [toOption_scanText_escape, hread, Except.toOption_ok, Option.bind_some, ih]
      rfl
    · rw [hc]
      show (scanText (.char c :: escaped cs)).toOption = _
      rw [scanText, if_neg (Nat.not_lt.mpr hge), Except.toOption_map, ih]
      · rfl
      all_goals grind

/-- What was escaped is read back. -/
theorem readText_escaped (cs : List Char) : whole? readText (escaped cs) = some (String.ofList cs) := by
  obtain ⟨size, hscan⟩ := toOption_scanText_escaped cs
  rw [whole?, readText, Except.toOption_bind, hscan]
  rfl

end MicroFrontends.Json
