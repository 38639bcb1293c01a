import Mathlib.Data.List.TakeWhile
import MicroFrontends.Proofs.Json.Values

/-!
# What is read has the form of a value

All that a reader takes from a document is a value with blanks before it. Of loops over items or
members the same is known as of the texts of arrays and objects (`form_of_readItems`,
`form_of_readMembers`), so it holds of any value that is read or skipped (`takes_readValue`,
`hasValue_of_skipValue`).
-/

namespace MicroFrontends.Json

variable {α β σ : Type} {d d' rest : Document}

/-- The document goes on with a value, after blanks, and with the rest after it. -/
def HasValue (d rest : Document) : Prop :=
  ∃ blank t, Blank blank ∧ IsText t ∧ d = blank ++ t ++ rest

/-- What the reader takes is a value. -/
def Takes (f : Reader α) : Prop := ∀ ⦃d v rest⦄, f d = .ok (v, rest) → HasValue d rest

/-! ## Blanks -/

theorem exists_blank (d : Document) : ∃ blank, Blank blank ∧ d = blank ++ skipSpace d :=
  ⟨d.takeWhile isSpace, fun _ => List.mem_takeWhile_imp, List.takeWhile_append_dropWhile.symm⟩

theorem HasValue.prepend (h : HasValue d rest) {blank : Document} (hb : Blank blank) :
    HasValue (blank ++ d) rest := by
  obtain ⟨before, t, hbefore, ht, rfl⟩ := h
  exact ⟨blank ++ before, t, hb.append hbefore, ht, by simp⟩

theorem HasValue.of_skipSpace (h : HasValue (skipSpace d) rest) : HasValue d rest := by
  obtain ⟨blank, hb, hd⟩ := exists_blank d
  exact hd ▸ h.prepend hb

theorem hasValue_of_text {t : Document} (ht : IsText t) (rest : Document) :
    HasValue (t ++ rest) rest := ⟨[], t, blank_nil, ht, rfl⟩

theorem hasValue_of_readScalar {v : Json} (h : readScalar d = .ok (v, rest)) : HasValue d rest := by
  obtain ⟨t, rfl, ht⟩ := scalarText_of_readScalar h
  exact hasValue_of_text (.scalar ht) rest

/-! ## Arrays -/

theorem closeArray_eq_ok (h : closeArray d = .ok rest) : skipSpace d = .char ']' :: rest := by
  unfold closeArray at h
  split at h
  · next heq => cases h; exact heq
  · split at h <;> cases h
  · cases h
  · cases h

theorem insideArray_eq_ok {body : Reader α} {v : α} (h : insideArray body d = .ok (v, rest)) :
    ∃ left, body d = .ok (v, left) ∧ closeArray left = .ok rest := by
  obtain ⟨⟨w, left⟩, hbody, h⟩ := Except.bind_eq_ok.mp h
  obtain ⟨r, hclose, h⟩ := Except.bind_eq_ok.mp h
  cases h
  exact ⟨left, Except.mapError_eq_ok.mp hbody, hclose⟩

namespace AtItems

variable {first : Bool} {items : List Item}

theorem prepend (h : AtItems rest first items d) {blank : Document} (hb : Blank blank) :
    AtItems rest first items (blank ++ d) := by
  cases h with
  | first hb' =>
    rw [← List.append_assoc, ← List.append_assoc]
    exact .first (hb.append hb')
  | later hb' =>
    rw [← List.append_assoc]
    exact .later (hb.append hb')

/-- No item follows if the array is closed. -/
theorem nil (h : skipSpace d = .char ']' :: rest) : AtItems rest first [] d := by
  obtain ⟨blank, hb, hd⟩ := exists_blank d
  rw [hd, h]
  cases first with
  | true =>
    have hat : AtItems rest true [] (blank ++ itemsText [] ++ rest) := .first hb
    simpa [itemsText] using hat
  | false => exact .later hb

/-- A value after a comma is one more item. -/
theorem cons (h : HasValue d d') (hrest : AtItems rest false items d') :
    ∃ i : Item, IsText i.value ∧ AtItems rest false (i :: items) (.char ',' :: d) := by
  obtain ⟨before, t, hb, ht, rfl⟩ := h
  cases hrest with
  | @later after _ ha =>
    refine ⟨⟨before, t, after, hb, ha⟩, ht, ?_⟩
    simpa [Item.listed, Item.text] using
      (AtItems.later blank_nil : AtItems rest false (⟨before, t, after, hb, ha⟩ :: items) _)

/-- The first item is like one after a comma. -/
theorem first_of_later (h : AtItems rest false items (.char ',' :: d)) :
    AtItems rest true items d := by
  generalize hd : Symbol.char ',' :: d = d' at h
  cases h with
  | @later blank _ hb =>
    cases blank with
    | cons s blank =>
      obtain ⟨rfl, -⟩ := List.cons.inj hd
      cases hb _ List.mem_cons_self
    | nil =>
      cases items with
      | nil => cases hd
      | cons i items =>
        obtain rfl : d = i.text ++ items.flatMap Item.listed ++ .char ']' :: rest :=
          (List.cons.inj hd).2
        have hat : AtItems rest true (i :: items) ([] ++ itemsText (i :: items) ++ rest) :=
          .first blank_nil
        simpa [itemsText] using hat

theorem rest_eq (h : AtItems rest false items (.char ']' :: d)) : d = rest := by
  generalize hd : Symbol.char ']' :: d = d' at h
  cases h with
  | @later blank _ hb =>
    cases blank with
    | cons s blank =>
      obtain ⟨rfl, -⟩ := List.cons.inj hd
      cases hb _ List.mem_cons_self
    | nil =>
      cases items with
      | nil => exact (List.cons.inj hd).2
      | cons i items => cases hd

end AtItems

/-- What stands before one more item is known from the place of the first one. -/
theorem form_of_nextItem {first : Bool} {items : List Item} {d₁ : Document}
    (h : nextItem first d = .ok (true, d₁)) (hv : HasValue d₁ d')
    (hrest : AtItems rest false items d') :
    ∃ i : Item, IsText i.value ∧ AtItems rest first (i :: items) d := by
  unfold nextItem at h
  split at h
  · cases h
  · cases h
  · next d₂ hcomma =>
    cases first with
    | true =>
      obtain ⟨-, rfl⟩ := Prod.mk.inj (Except.ok.inj h)
      obtain ⟨i, hi, hat⟩ := AtItems.cons (hcomma ▸ hv).of_skipSpace hrest
      exact ⟨i, hi, hat.first_of_later⟩
    | false =>
      simp only [Bool.false_eq_true, if_false] at h
      split at h
      · cases h
      · cases h
      · obtain ⟨-, rfl⟩ := Prod.mk.inj (Except.ok.inj h)
        obtain ⟨blank, hb, hd⟩ := exists_blank d
        obtain ⟨i, hi, hat⟩ := AtItems.cons hv.of_skipSpace hrest
        rw [hd, hcomma]
        exact ⟨i, hi, hat.prepend hb⟩
  · cases first with
    | true =>
      obtain ⟨-, rfl⟩ := Prod.mk.inj (Except.ok.inj h)
      obtain ⟨i, hi, hat⟩ := AtItems.cons hv.of_skipSpace hrest
      exact ⟨i, hi, hat.first_of_later⟩
    | false => cases h

theorem skipSpace_of_nextItem {first : Bool} (h : nextItem first d = .ok (false, d')) :
    ∃ rest, d' = .char ']' :: rest ∧ skipSpace d = .char ']' :: rest := by
  unfold nextItem at h
  split at h
  · cases h
  · next rest hclose =>
    obtain ⟨-, rfl⟩ := Prod.mk.inj (Except.ok.inj h)
    exact ⟨rest, rfl, hclose⟩
  · split at h
    · cases h
    · split at h <;> cases h
  · split at h <;> cases h

theorem form_of_readItems {item : σ → Reader σ} (h : ∀ s, Takes (item s)) :
    ∀ fuel first {s s' : σ} {d rest : Document}, readItems item fuel first s d = .ok (s', rest) →
      ∃ rest' items, rest = .char ']' :: rest' ∧ (∀ i ∈ items, IsText i.value) ∧
        AtItems rest' first items d
  | 0, _, _, _, _, _, hread => by cases hread
  | fuel + 1, first, s, s', d, rest, hread => by
    rw [readItems] at hread
    obtain ⟨⟨more, d₁⟩, hnext, hread⟩ := Except.bind_eq_ok.mp hread
    cases more with
    | false =>
      cases hread
      obtain ⟨rest', rfl, hclose⟩ := skipSpace_of_nextItem hnext
      exact ⟨rest', [], rfl, List.forall_mem_nil _, .nil hclose⟩
    | true =>
      obtain ⟨⟨s₁, d₂⟩, hitem, hread⟩ := Except.bind_eq_ok.mp hread
      obtain ⟨rest', items, rfl, hi, hat⟩ := form_of_readItems h fuel false hread
      obtain ⟨i, ht, hat⟩ := form_of_nextItem hnext (h s hitem) hat
      exact ⟨rest', i :: items, rfl, List.forall_mem_cons.mpr ⟨ht, hi⟩, hat⟩

/-- An array that is closed is a value. -/
theorem hasValue_of_items {items : List Item} (hopen : skipSpace d = .char '[' :: d')
    (hi : ∀ i ∈ items, IsText i.value) (hat : AtItems rest true items d') : HasValue d rest := by
  refine HasValue.of_skipSpace ?_
  cases hat with
  | @first blank _ hb =>
    rw [hopen]
    exact hasValue_of_text (.array hb hi) rest

theorem hasValue_of_readArray {item : σ → Reader σ} (h : ∀ s, Takes (item s)) {s s' : σ}
    (hopen : skipSpace d = .char '[' :: d') (hread : readArray item s d' = .ok (s', rest)) :
    HasValue d rest := by
  obtain ⟨left, hitems, hclose⟩ := insideArray_eq_ok hread
  obtain ⟨rest', items, rfl, hi, hat⟩ := form_of_readItems h _ _ hitems
  cases hclose
  exact hasValue_of_items hopen hi hat

/-! ## Objects -/

/-- What a reader takes that starts after the name of a member. -/
def TakesMember (f : Reader α) : Prop :=
  ∀ ⦃d v rest⦄, f d = .ok (v, rest) → ∃ d', readColon d = .ok d' ∧ HasValue d' rest

theorem insideObject_eq_ok {body : Reader α} {v : α} (h : insideObject body d = .ok (v, rest)) :
    ∃ left, body d = .ok (v, left) ∧ closeObject left = .ok rest := by
  obtain ⟨⟨w, left⟩, hbody, h⟩ := Except.bind_eq_ok.mp h
  obtain ⟨r, hclose, h⟩ := Except.bind_eq_ok.mp h
  cases h
  exact ⟨left, Except.mapError_eq_ok.mp hbody, hclose⟩

theorem form_of_readColon (h : readColon d = .ok d') :
    ∃ blank, Blank blank ∧ d = blank ++ .char ':' :: d' := by
  obtain ⟨blank, hb, hd⟩ := exists_blank d
  unfold readColon at h
  split at h
  · next heq => cases h; exact ⟨blank, hb, heq ▸ hd⟩
  · cases h
  · cases h

namespace AtMembers

variable {first : Bool} {members : List Member}

theorem prepend (h : AtMembers rest first members d) {blank : Document} (hb : Blank blank) :
    AtMembers rest first members (blank ++ d) := by
  cases h with
  | first hb' =>
    rw [← List.append_assoc, ← List.append_assoc]
    exact .first (hb.append hb')
  | later hb' =>
    rw [← List.append_assoc]
    exact .later (hb.append hb')

/-- No member follows if the object is closed. -/
theorem nil (h : skipSpace d = .char '\x7d' :: rest) : AtMembers rest first [] d := by
  obtain ⟨blank, hb, hd⟩ := exists_blank d
  rw [hd, h]
  cases first with
  | true =>
    have hat : AtMembers rest true [] (blank ++ membersText [] ++ rest) := .first hb
    simpa [membersText] using hat
  | false => exact .later hb

/-- A name and a value after a comma are one more member. -/
theorem cons {name d₁ : Document} (hname : Quoted name) (hcolon : readColon d = .ok d₁)
    (hv : HasValue d₁ d') (hrest : AtMembers rest false members d') {blank : Document}
    (hblank : Blank blank) : ∃ m : Member, IsText m.value ∧
      AtMembers rest false (m :: members) (.char ',' :: (blank ++ .char '"' :: (name ++ d))) := by
  obtain ⟨middle, hmiddle, rfl⟩ := form_of_readColon hcolon
  obtain ⟨between, t, hbetween, ht, rfl⟩ := hv
  cases hrest with
  | @later after _ ha =>
    refine ⟨⟨blank, name, middle, between, t, after, hblank, hname, hmiddle, hbetween, ha⟩, ht, ?_⟩
    simpa [Member.listed, Member.text] using
      (AtMembers.later blank_nil : AtMembers rest false
        (⟨blank, name, middle, between, t, after, hblank, hname, hmiddle, hbetween, ha⟩ :: members) _)

/-- The first member is like one after a comma. -/
theorem first_of_later (h : AtMembers rest false members (.char ',' :: d)) :
    AtMembers rest true members d := by
  generalize hd : Symbol.char ',' :: d = d' at h
  cases h with
  | @later blank _ hb =>
    cases blank with
    | cons s blank =>
      obtain ⟨rfl, -⟩ := List.cons.inj hd
      cases hb _ List.mem_cons_self
    | nil =>
      cases members with
      | nil => cases hd
      | cons m members =>
        obtain rfl : d = m.text ++ members.flatMap Member.listed ++ .char '\x7d' :: rest :=
          (List.cons.inj hd).2
        have hat : AtMembers rest true (m :: members) ([] ++ membersText (m :: members) ++ rest) :=
          .first blank_nil
        simpa [membersText] using hat

end AtMembers

theorem quoted_of_readName {name : String} (h : readName d = .ok (name, rest)) :
    ∃ q, Quoted q ∧ d = .char '"' :: (q ++ rest) := by
  unfold readName at h
  split at h
  · obtain ⟨q, rfl, hq⟩ := quoted_of_readText h
    exact ⟨q, hq, rfl⟩
  · cases h

/-- What stands before one more member is known from the place of the first one. -/
theorem form_of_nextMember {first : Bool} (h : nextMember first d = .ok (true, d')) :
    ∃ blank, Blank blank ∧ ∀ {rest : Document} {members : List Member},
      AtMembers rest false members (.char ',' :: (blank ++ d')) → AtMembers rest first members d := by
  obtain ⟨blank, hb, hd⟩ := exists_blank d
  unfold nextMember at h
  split at h
  · cases h
  · cases h
  · next d₁ hcomma =>
    split at h
    · cases h
    · next hfirst =>
      split at h
      · next hname =>
        obtain ⟨-, rfl⟩ := Prod.mk.inj (Except.ok.inj h)
        obtain rfl := Bool.eq_false_iff.mpr hfirst
        obtain ⟨blank', hb', hd'⟩ := exists_blank d₁
        refine ⟨blank', hb', fun hat => ?_⟩
        rw [hd, hcomma, hd', hname]
        exact hat.prepend hb
      · cases h
      · cases h
      · cases h
  · next hname =>
    split at h
    · next hfirst =>
      obtain ⟨-, rfl⟩ := Prod.mk.inj (Except.ok.inj h)
      obtain rfl := hfirst
      refine ⟨blank, hb, fun hat => ?_⟩
      rw [hd, hname]
      exact hat.first_of_later
    · cases h
  · split at h <;> cases h

theorem skipSpace_of_nextMember {first : Bool} (h : nextMember first d = .ok (false, d')) :
    ∃ rest, d' = .char '\x7d' :: rest ∧ skipSpace d = .char '\x7d' :: rest := by
  unfold nextMember at h
  split at h
  · cases h
  · next rest hclose =>
    obtain ⟨-, rfl⟩ := Prod.mk.inj (Except.ok.inj h)
    exact ⟨rest, rfl, hclose⟩
  · split at h
    · cases h
    · split at h <;> cases h
  · split at h <;> cases h
  · split at h <;> cases h

theorem form_of_readMembers {member : σ → String → Reader σ}
    (h : ∀ s name, TakesMember (member s name)) :
    ∀ fuel first {s s' : σ} {d rest : Document},
      readMembers member fuel first s d = .ok (s', rest) →
      ∃ rest' members, rest = .char '\x7d' :: rest' ∧ (∀ m ∈ members, IsText m.value) ∧
        AtMembers rest' first members d
  | 0, _, _, _, _, _, hread => by cases hread
  | fuel + 1, first, s, s', d, rest, hread => by
    rw [readMembers] at hread
    obtain ⟨⟨more, d₁⟩, hnext, hread⟩ := Except.bind_eq_ok.mp hread
    cases more with
    | false =>
      cases hread
      obtain ⟨rest', rfl, hclose⟩ := skipSpace_of_nextMember hnext
      exact ⟨rest', [], rfl, List.forall_mem_nil _, .nil hclose⟩
    | true =>
      obtain ⟨⟨name, d₂⟩, hname, hread⟩ := Except.bind_eq_ok.mp hread
      obtain ⟨⟨s₁, d₃⟩, hmember, hread⟩ := Except.bind_eq_ok.mp hread
      obtain ⟨rest', members, rfl, hm, hrest⟩ := form_of_readMembers h fuel false hread
      obtain ⟨d₄, hcolon, hv⟩ := h s name hmember
      obtain ⟨q, hq, rfl⟩ := quoted_of_readName hname
      obtain ⟨blank, hb, hat⟩ := form_of_nextMember hnext
      obtain ⟨m, ht, hcons⟩ := AtMembers.cons hq hcolon hv hrest hb
      exact ⟨rest', m :: members, rfl, List.forall_mem_cons.mpr ⟨ht, hm⟩, hat hcons⟩

/-- An object that is closed is a value. -/
theorem hasValue_of_members {members : List Member} (hopen : skipSpace d = .char '\x7b' :: d')
    (hm : ∀ m ∈ members, IsText m.value) (hat : AtMembers rest true members d') :
    HasValue d rest := by
  refine HasValue.of_skipSpace ?_
  cases hat with
  | @first blank _ hb =>
    rw [hopen]
    exact hasValue_of_text (.object hb hm) rest

theorem hasValue_of_readObject {member : σ → String → Reader σ}
    (h : ∀ s name, TakesMember (member s name)) {s s' : σ}
    (hopen : skipSpace d = .char '\x7b' :: d') (hread : readObject member s d' = .ok (s', rest)) :
    HasValue d rest := by
  obtain ⟨left, hmembers, hclose⟩ := insideObject_eq_ok hread
  obtain ⟨rest', members, rfl, hm, hat⟩ := form_of_readMembers h _ _ hmembers
  cases hclose
  exact hasValue_of_members hopen hm hat

/-! ## Values -/

theorem Takes.map {f : Reader α} (hf : Takes f) (g : α → β) : Takes (fun d => do
    let (v, d) ← f d
    return (g v, d)) := by
  intro d w rest h
  obtain ⟨⟨v, r⟩, hv, h⟩ := Except.bind_eq_ok.mp h
  cases h
  exact hf hv

theorem Takes.member {f : Reader α} (hf : Takes f) (g : α → β) : TakesMember (fun d => do
    let (v, d) ← f (← readColon d)
    return (g v, d)) := by
  intro d w rest h
  obtain ⟨d', hcolon, h⟩ := Except.bind_eq_ok.mp h
  exact ⟨d', hcolon, hf.map g h⟩

theorem takes_readValue (room : Nat) : Takes (readValue room) := by
  induction room with
  | zero =>
    intro d v rest h
    rw [readValue] at h
    split at h
    · cases h
    · cases h
    · exact (hasValue_of_readScalar h).of_skipSpace
  | succ room ih =>
    intro d v rest h
    have hread := h
    rw [readValue] at hread
    split at hread
    · next hopen =>
      rw [readValue_openArray hopen] at h
      obtain ⟨⟨items, r⟩, hitems, hv⟩ := Except.map_eq_ok.mp h
      cases hv
      exact hasValue_of_readArray (fun items => ih.map (· :: items)) hopen hitems
    · next hopen =>
      rw [readValue_openObject hopen] at h
      obtain ⟨⟨members, r⟩, hmembers, hv⟩ := Except.map_eq_ok.mp h
      cases hv
      exact hasValue_of_readObject (fun members name => ih.member fun v => (name, v) :: members) hopen
        hmembers
    · exact (hasValue_of_readScalar hread).of_skipSpace

/-! ### Values that are skipped -/

theorem form_of_skipItems {item : Document → Except Failure Document}
    (h : ∀ {d rest}, item d = .ok rest → HasValue d rest) :
    ∀ fuel {d rest : Document}, skipItems item fuel d = .ok rest →
      ∃ items : List Item, (∀ i ∈ items, IsText i.value) ∧ AtItems rest false items (.char ',' :: d)
  | 0, _, _, hskip => by cases hskip
  | fuel + 1, d, rest, hskip => by
    rw [skipItems] at hskip
    obtain ⟨d₁, hitem, hskip⟩ := Except.bind_eq_ok.mp hskip
    obtain ⟨blank, hb, hd⟩ := exists_blank d₁
    have hrest : ∃ items : List Item, (∀ i ∈ items, IsText i.value) ∧
        AtItems rest false items d₁ := by
      split at hskip
      · next heq =>
        obtain ⟨items, hi, hat⟩ := form_of_skipItems h fuel hskip
        exact ⟨items, hi, by rw [hd, heq]; exact hat.prepend hb⟩
      · next heq =>
        cases hskip
        exact ⟨[], List.forall_mem_nil _, .nil heq⟩
      · cases hskip
      · cases hskip
    obtain ⟨items, hi, hat⟩ := hrest
    obtain ⟨i, ht, hat⟩ := AtItems.cons (h hitem) hat
    exact ⟨i :: items, List.forall_mem_cons.mpr ⟨ht, hi⟩, hat⟩

theorem form_of_skipMembers {value : Document → Except Failure Document}
    (h : ∀ {d rest}, value d = .ok rest → HasValue d rest) :
    ∀ fuel {d rest : Document}, skipMembers value fuel d = .ok rest →
      ∃ members : List Member, (∀ m ∈ members, IsText m.value) ∧
        AtMembers rest false members (.char ',' :: d)
  | 0, _, _, hskip => by cases hskip
  | fuel + 1, d, rest, hskip => by
    rw [skipMembers] at hskip
    split at hskip
    · next hquote =>
      obtain ⟨d₂, hname, hskip⟩ := Except.bind_eq_ok.mp hskip
      obtain ⟨d₃, hcolon, hskip⟩ := Except.bind_eq_ok.mp hskip
      obtain ⟨d₄, hvalue, hskip⟩ := Except.bind_eq_ok.mp hskip
      obtain ⟨blank, hb, hd⟩ := exists_blank d
      obtain ⟨after, ha, hd₄⟩ := exists_blank d₄
      have hrest : ∃ members : List Member, (∀ m ∈ members, IsText m.value) ∧
          AtMembers rest false members d₄ := by
        split at hskip
        · next heq =>
          obtain ⟨members, hm, hat⟩ := form_of_skipMembers h fuel hskip
          exact ⟨members, hm, by rw [hd₄, heq]; exact hat.prepend ha⟩
        · next heq =>
          cases hskip
          exact ⟨[], List.forall_mem_nil _, .nil heq⟩
        · cases hskip
        · cases hskip
      obtain ⟨members, hm, hat⟩ := hrest
      obtain ⟨q, rfl, hq⟩ := quoted_of_skipText hname
      obtain ⟨m, ht, hat⟩ := AtMembers.cons hq hcolon (h hvalue) hat hb
      rw [hd, hquote]
      exact ⟨m :: members, List.forall_mem_cons.mpr ⟨ht, hm⟩, hat⟩
    · cases hskip
    · cases hskip

theorem hasValue_of_skipScalar (h : skipScalar d = .ok rest) : HasValue d rest := by
  obtain ⟨t, rfl, ht⟩ := scalarText_of_skipScalar h
  exact hasValue_of_text (.scalar ht) rest

theorem hasValue_of_skipNested : ∀ fuel {d rest : Document}, skipNested fuel d = .ok rest →
    HasValue d rest
  | 0, _, _, h => by cases h
  | fuel + 1, d, rest, h => by
    rw [skipNested] at h
    split at h
    · next d₁ hopen =>
      obtain ⟨blank, hb, hd₁⟩ := exists_blank d₁
      split at h
      · next hclose =>
        cases h
        exact hasValue_of_items hopen (List.forall_mem_nil _) (.nil hclose)
      · cases h
      · obtain ⟨items, hi, hat⟩ := form_of_skipItems (hasValue_of_skipNested fuel) _ h
        rw [hd₁] at hopen
        exact hasValue_of_items hopen hi (hat.first_of_later.prepend hb)
    · next d₁ hopen =>
      obtain ⟨blank, hb, hd₁⟩ := exists_blank d₁
      split at h
      · next hclose =>
        cases h
        exact hasValue_of_members hopen (List.forall_mem_nil _) (.nil hclose)
      · cases h
      · obtain ⟨members, hm, hat⟩ := form_of_skipMembers (hasValue_of_skipNested fuel) _ h
        rw [hd₁] at hopen
        exact hasValue_of_members hopen hm (hat.first_of_later.prepend hb)
    · exact (hasValue_of_skipScalar h).of_skipSpace

theorem hasValue_of_skipValue (h : skipValue d = .ok rest) : HasValue d rest :=
  hasValue_of_skipNested _ h

end MicroFrontends.Json
