import MicroFrontends.Proofs.Json.Syntax

/-!
# Arrays and objects

The text of an array or an object is given as the texts of its items or members with the blanks
around them, so that it can be changed in one place. `IsText t` says that `t` has the form of any
value, without blanks before or after it.

Reading an array or an object is a fold over its items or members (`toOption_readArray`,
`toOption_readObject`), whatever a reader makes of them, and skipping it skips all of them
(`skipValue_append`).
-/

namespace MicroFrontends.Json

/-! ## Lengths -/

theorem length_le_flatMap {α β : Type} (f : α → List β) (hf : ∀ a, 0 < (f a).length) (l : List α) :
    l.length ≤ (l.flatMap f).length := by
  induction l with
  | nil => exact Nat.zero_le _
  | cons a l ih =>
    have := hf a
    simp only [List.flatMap_cons, List.length_append, List.length_cons]
    omega

theorem length_le_of_mem {α β : Type} (f : α → List β) {a : α} {l : List α} (h : a ∈ l) :
    (f a).length ≤ (l.flatMap f).length := by
  induction l with
  | nil => cases h
  | cons b l ih =>
    simp only [List.flatMap_cons, List.length_append]
    rcases List.mem_cons.mp h with rfl | h
    · omega
    · have := ih h
      omega

/-! ## Items and members -/

/-- An item of an array, with the blanks around it. -/
structure Item where
  before : Document
  value : Document
  after : Document
  blank_before : Blank before
  blank_after : Blank after

/-- A member of an object, with the blanks around its parts. The name is what follows its opening
quote, with the closing one. -/
structure Member where
  before : Document
  name : Document
  middle : Document
  between : Document
  value : Document
  after : Document
  blank_before : Blank before
  quoted_name : Quoted name
  blank_middle : Blank middle
  blank_between : Blank between
  blank_after : Blank after

namespace Item

def text (i : Item) : Document := i.before ++ i.value ++ i.after

/-- The item after a comma. -/
def listed (i : Item) : Document := .char ',' :: i.text

end Item

namespace Member

def text (m : Member) : Document :=
  m.before ++ .char '"' :: (m.name ++ (m.middle ++ .char ':' :: (m.between ++ m.value ++ m.after)))

/-- The member after a comma. -/
def listed (m : Member) : Document := .char ',' :: m.text

/-- The name that the member has for readers. -/
def name? (m : Member) : Option String := whole? readText m.name

/-- What a reader that starts after the name makes of the member. -/
def Makes {α : Type} (m : Member) (f : Reader α) (x : Option α) : Prop :=
  ∀ rest, Ends rest →
    (f (m.middle ++ .char ':' :: (m.between ++ m.value ++ rest))).toOption = x.map (·, rest)

end Member

/-- The items from the first one to the closing bracket. -/
def itemsText : List Item → Document
  | [] => [.char ']']
  | i :: items => i.text ++ items.flatMap Item.listed ++ [.char ']']

/-- The members from the first one to the closing brace. -/
def membersText : List Member → Document
  | [] => [.char '\x7d']
  | m :: members => m.text ++ members.flatMap Member.listed ++ [.char '\x7d']

/-- An array, with a blank after its opening bracket. -/
def arrayText (blank : Document) (items : List Item) : Document :=
  .char '[' :: (blank ++ itemsText items)

/-- An object, with a blank after its opening brace. -/
def objectText (blank : Document) (members : List Member) : Document :=
  .char '\x7b' :: (blank ++ membersText members)

/-- The form of a value. -/
inductive IsText : Document → Prop
  | scalar {t : Document} : ScalarText t → IsText t
  | array {blank : Document} {items : List Item} : Blank blank → (∀ i ∈ items, IsText i.value) →
    IsText (arrayText blank items)
  | object {blank : Document} {members : List Member} : Blank blank →
    (∀ m ∈ members, IsText m.value) → IsText (objectText blank members)

theorem IsText.starts {t : Document} (h : IsText t) : Starts t := by
  cases h with
  | scalar hs =>
    obtain ⟨s, t', rfl, hd, -⟩ := hs.start
    exact starts_cons hd
  | array hb hi => exact starts_cons rfl
  | object hb hm => exact starts_cons rfl

theorem skipSpace_array {blank : Document} (hb : Blank blank) (pad : Document) (items : List Item)
    (rest : Document) : skipSpace (blank ++ arrayText pad items ++ rest) =
      .char '[' :: (pad ++ itemsText items ++ rest) :=
  (starts_cons rfl : Starts (arrayText pad items)).skipSpace hb rest

theorem skipSpace_object {blank : Document} (hb : Blank blank) (pad : Document)
    (members : List Member) (rest : Document) : skipSpace (blank ++ objectText pad members ++ rest) =
      .char '\x7b' :: (pad ++ membersText members ++ rest) :=
  (starts_cons rfl : Starts (objectText pad members)).skipSpace hb rest

/-! ## Between items and members -/

/-- The items that are still to be read, the first one of the array or later ones, and what is left
of the document before them. -/
inductive AtItems (rest : Document) : (first : Bool) → List Item → Document → Prop
  | first {blank : Document} {items : List Item} : Blank blank →
    AtItems rest true items (blank ++ itemsText items ++ rest)
  | later {blank : Document} {items : List Item} : Blank blank →
    AtItems rest false items (blank ++ (items.flatMap Item.listed ++ .char ']' :: rest))

/-- The members that are still to be read, and what is left of the document before them. -/
inductive AtMembers (rest : Document) : (first : Bool) → List Member → Document → Prop
  | first {blank : Document} {members : List Member} : Blank blank →
    AtMembers rest true members (blank ++ membersText members ++ rest)
  | later {blank : Document} {members : List Member} : Blank blank →
    AtMembers rest false members (blank ++ (members.flatMap Member.listed ++ .char '\x7d' :: rest))

/-- The item and what follows it, after the blanks before it. -/
def Item.onward (i : Item) (items : List Item) (rest : Document) : Document :=
  i.value ++ (i.after ++ (items.flatMap Item.listed ++ .char ']' :: rest))

/-- The member and what follows it, after the blanks before it. -/
def Member.onward (m : Member) (members : List Member) (rest : Document) : Document :=
  .char '"' :: (m.name ++ (m.middle ++ .char ':' :: (m.between ++ m.value ++
    (m.after ++ (members.flatMap Member.listed ++ .char '\x7d' :: rest)))))

theorem readColon_append {blank : Document} (hb : Blank blank) (rest : Document) :
    readColon (blank ++ .char ':' :: rest) = .ok rest := by
  rw [readColon, skipSpace_append hb (solid_cons rfl)]
  rfl

section
variable {rest d : Document} {first : Bool} {i : Item} {items : List Item} {m : Member}
  {members : List Member}

/-- After an item comes a comma or the closing bracket. -/
theorem ends_after_item (i : Item) (items : List Item) (rest : Document) :
    Ends (i.after ++ (items.flatMap Item.listed ++ .char ']' :: rest)) := by
  refine i.blank_after.ends_append ?_
  cases items with
  | nil => exact ends_cons rfl
  | cons i items => exact ends_cons rfl

/-- After a member comes a comma or the closing brace. -/
theorem ends_after_member (m : Member) (members : List Member) (rest : Document) :
    Ends (m.after ++ (members.flatMap Member.listed ++ .char '\x7d' :: rest)) := by
  refine m.blank_after.ends_append ?_
  cases members with
  | nil => exact ends_cons rfl
  | cons m members => exact ends_cons rfl

namespace AtItems

theorem exists_blank_nil (h : AtItems rest first [] d) :
    ∃ blank, Blank blank ∧ d = blank ++ .char ']' :: rest := by
  cases h with
  | first hb => exact ⟨_, hb, by simp [itemsText]⟩
  | later hb => exact ⟨_, hb, by simp⟩

theorem nextItem_nil (h : AtItems rest first [] d) :
    nextItem first d = .ok (false, .char ']' :: rest) := by
  obtain ⟨blank, hb, rfl⟩ := h.exists_blank_nil
  rw [nextItem, skipSpace_append hb (solid_cons rfl)]
  rfl

theorem nextItem_cons (h : AtItems rest first (i :: items) d) (hi : Starts i.value) :
    nextItem first d = .ok (true, i.onward items rest) := by
  have hs : Starts (i.onward items rest) := hi.append _
  cases h with
  | @first blank _ hb =>
    have hd : blank ++ itemsText (i :: items) ++ rest =
        blank ++ i.before ++ i.onward items rest := by
      simp [itemsText, Item.text, Item.onward]
    rw [hd, nextItem, skipSpace_append (hb.append i.blank_before) hs.solid]
    split
    · next h => exact absurd h hs.ne_nil
    · next h => exact absurd h (hs.ne_cons rfl _)
    · next h => exact absurd h (hs.ne_cons rfl _)
    · rfl
  | @later blank _ hb =>
    have hd : blank ++ ((i :: items).flatMap Item.listed ++ .char ']' :: rest) =
        blank ++ .char ',' :: (i.before ++ i.onward items rest) := by
      simp [Item.listed, Item.text, Item.onward]
    rw [hd, nextItem, skipSpace_append hb (solid_cons rfl)]
    simp only [Bool.false_eq_true, if_false]
    rw [skipSpace_append i.blank_before hs.solid]
    split
    · next h => exact absurd h (hs.ne_cons rfl _)
    · next h => exact absurd h hs.ne_nil
    · rfl

theorem closeArray_nil (h : AtItems rest first [] d) : closeArray d = .ok rest := by
  obtain ⟨blank, hb, rfl⟩ := h.exists_blank_nil
  rw [closeArray, skipSpace_append hb (solid_cons rfl)]
  rfl

theorem closeArray_cons (h : AtItems rest first (i :: items) d) (hi : Starts i.value) :
    (closeArray d).toOption = none := by
  have hs : Starts (i.onward items rest) := hi.append _
  cases h with
  | @first blank _ hb =>
    have hd : blank ++ itemsText (i :: items) ++ rest =
        blank ++ i.before ++ i.onward items rest := by
      simp [itemsText, Item.text, Item.onward]
    rw [hd, closeArray, skipSpace_append (hb.append i.blank_before) hs.solid]
    split
    · next h => exact absurd h (hs.ne_cons rfl _)
    · next h => exact absurd h (hs.ne_cons rfl _)
    · rfl
    · rfl
  | @later blank _ hb =>
    have hd : blank ++ ((i :: items).flatMap Item.listed ++ .char ']' :: rest) =
        blank ++ .char ',' :: (i.before ++ i.onward items rest) := by
      simp [Item.listed, Item.text, Item.onward]
    rw [hd, closeArray, skipSpace_append hb (solid_cons rfl)]
    split
    · next h => cases h
    · split <;> rfl
    · rfl
    · rfl

theorem after_item (i : Item) (items : List Item) (rest : Document) : AtItems rest false items
    (i.after ++ (items.flatMap Item.listed ++ .char ']' :: rest)) := .later i.blank_after

end AtItems

namespace AtMembers

theorem exists_blank_nil (h : AtMembers rest first [] d) :
    ∃ blank, Blank blank ∧ d = blank ++ .char '\x7d' :: rest := by
  cases h with
  | first hb => exact ⟨_, hb, by simp [membersText]⟩
  | later hb => exact ⟨_, hb, by simp⟩

theorem nextMember_nil (h : AtMembers rest first [] d) :
    nextMember first d = .ok (false, .char '\x7d' :: rest) := by
  obtain ⟨blank, hb, rfl⟩ := h.exists_blank_nil
  rw [nextMember, skipSpace_append hb (solid_cons rfl)]
  rfl

theorem nextMember_cons (h : AtMembers rest first (m :: members) d) :
    nextMember first d = .ok (true, m.onward members rest) := by
  have hs : Solid (m.onward members rest) := solid_cons rfl
  cases h with
  | @first blank _ hb =>
    have hd : blank ++ membersText (m :: members) ++ rest =
        blank ++ m.before ++ m.onward members rest := by
      simp [membersText, Member.text, Member.onward]
    rw [hd, nextMember, skipSpace_append (hb.append m.blank_before) hs]
    rfl
  | @later blank _ hb =>
    have hd : blank ++ ((m :: members).flatMap Member.listed ++ .char '\x7d' :: rest) =
        blank ++ .char ',' :: (m.before ++ m.onward members rest) := by
      simp [Member.listed, Member.text, Member.onward]
    rw [hd, nextMember, skipSpace_append hb (solid_cons rfl)]
    simp only [Bool.false_eq_true, if_false]
    rw [skipSpace_append m.blank_before hs]
    rfl

theorem after_member (m : Member) (members : List Member) (rest : Document) :
    AtMembers rest false members
      (m.after ++ (members.flatMap Member.listed ++ .char '\x7d' :: rest)) := .later m.blank_after

end AtMembers

end

/-! ## Reading -/

section
variable {σ α : Type} {rest d : Document} {first : Bool}

/-- Reading the items of an array is a fold over them. -/
theorem toOption_readItems {item : σ → Reader σ} {step : σ → Item → Option σ} :
    ∀ {items : List Item}, (∀ i ∈ items, Starts i.value) →
      (∀ i ∈ items, ∀ s, Makes (item s) i.value (step s i)) → ∀ {fuel}, items.length < fuel →
      ∀ (s : σ) {first : Bool} {d : Document}, AtItems rest first items d →
      (readItems item fuel first s d).toOption = (items.foldlM step s).map (·, .char ']' :: rest)
  | [], _, _, fuel + 1, _, s, first, d, hd => by
    rw [readItems, hd.nextItem_nil]
    rfl
  | i :: items, hstart, h, fuel + 1, hfuel, s, first, d, hd => by
    have hi := (h i List.mem_cons_self s).at_start (ends_after_item i items rest)
    rw [readItems, hd.nextItem_cons (hstart i List.mem_cons_self), Item.onward]
    simp only [Except.ok_bind, if_true, Except.toOption_bind, hi, List.foldlM_cons]
    cases step s i with
    | none => rfl
    | some s' =>
      exact toOption_readItems (fun i hi => hstart i (List.mem_cons_of_mem _ hi))
        (fun i hi => h i (List.mem_cons_of_mem _ hi)) (Nat.lt_of_succ_lt_succ hfuel) s'
        (AtItems.after_item i items rest)

theorem toOption_insideArray {body : Reader α} {x : Option (α × Document)}
    (h : (body d).toOption = x) : (insideArray body d).toOption =
      x.bind fun p => (closeArray p.2).toOption.map (p.1, ·) := by
  rw [insideArray, Except.toOption_bind, Except.toOption_mapError, h]
  cases x with
  | none => rfl
  | some p =>
    simp only [Option.bind_some]
    cases closeArray p.2 <;> rfl

theorem toOption_insideObject {body : Reader α} {x : Option α}
    (h : (body d).toOption = x.map (·, .char '\x7d' :: rest)) :
    (insideObject body d).toOption = x.map (·, rest) := by
  rw [insideObject, Except.toOption_bind, Except.toOption_mapError, h]
  cases x with
  | none => rfl
  | some a =>
    simp only [Option.map_some, Option.bind_some]
    rfl

theorem length_le_itemsText (items : List Item) : items.length ≤ (itemsText items).length := by
  cases items with
  | nil => exact Nat.zero_le _
  | cons i items =>
    have := length_le_flatMap Item.listed (fun _ => Nat.succ_pos _) items
    simp only [itemsText, List.length_append, List.length_cons, List.length_nil]
    omega

theorem toOption_readArray {item : σ → Reader σ} {step : σ → Item → Option σ} {items : List Item}
    (hstart : ∀ i ∈ items, Starts i.value) (h : ∀ i ∈ items, ∀ s, Makes (item s) i.value (step s i))
    (s : σ) {blank : Document} (hb : Blank blank) (rest : Document) :
    (readArray item s (blank ++ itemsText items ++ rest)).toOption =
      (items.foldlM step s).map (·, rest) := by
  have hlen := length_le_itemsText items
  refine (toOption_insideArray (toOption_readItems hstart h ?_ s (.first hb))).trans ?_
  · simp only [List.length_append]
    omega
  · cases items.foldlM step s <;> rfl

/-! ### Members -/

/-- What a reader of members makes of one of them, its name included. -/
def memberStep (step : σ → String → Member → Option σ) (s : σ) (m : Member) : Option σ :=
  m.name?.bind fun name => step s name m

theorem toOption_readMembers {member : σ → String → Reader σ}
    {step : σ → String → Member → Option σ} :
    ∀ {members : List Member},
      (∀ m ∈ members, ∀ s name, m.Makes (member s name) (step s name m)) →
      ∀ {fuel}, members.length < fuel → ∀ (s : σ) {first : Bool} {d : Document},
      AtMembers rest first members d → (readMembers member fuel first s d).toOption =
        (members.foldlM (memberStep step) s).map (·, .char '\x7d' :: rest)
  | [], _, fuel + 1, _, s, first, d, hd => by
    rw [readMembers, hd.nextMember_nil]
    rfl
  | m :: members, h, fuel + 1, hfuel, s, first, d, hd => by
    have hm := h m List.mem_cons_self s
    rw [readMembers, hd.nextMember_cons, Member.onward, List.foldlM_cons]
    simp only [Except.ok_bind, if_true, Except.toOption_bind, readName,
      readText_quoted m.quoted_name, memberStep, Member.name?]
    cases whole? readText m.name with
    | none => rfl
    | some name =>
      simp only [Option.map_some, Option.bind_some, hm name _ (ends_after_member m members rest)]
      cases step s name m with
      | none => rfl
      | some s' =>
        exact toOption_readMembers (fun m hm => h m (List.mem_cons_of_mem _ hm))
          (Nat.lt_of_succ_lt_succ hfuel) s' (AtMembers.after_member m members rest)

theorem length_le_membersText (members : List Member) :
    members.length ≤ (membersText members).length := by
  cases members with
  | nil => exact Nat.zero_le _
  | cons m members =>
    have := length_le_flatMap Member.listed (fun _ => Nat.succ_pos _) members
    simp only [membersText, List.length_append, List.length_cons, List.length_nil]
    omega

theorem toOption_readObject {member : σ → String → Reader σ}
    {step : σ → String → Member → Option σ} {members : List Member}
    (h : ∀ m ∈ members, ∀ s name, m.Makes (member s name) (step s name m)) (s : σ)
    {blank : Document} (hb : Blank blank) (rest : Document) :
    (readObject member s (blank ++ membersText members ++ rest)).toOption =
      (members.foldlM (memberStep step) s).map (·, rest) := by
  have hlen := length_le_membersText members
  refine toOption_insideObject (toOption_readMembers h ?_ s (.first hb))
  simp only [List.length_append]
  omega

end

/-! ## Skipping -/

/-- The text is used up, whatever blanks are before it and whatever comes after it. -/
def Skips (f : Document → Except Failure Document) (t : Document) : Prop :=
  ∀ blank rest, Blank blank → Ends rest → f (blank ++ t ++ rest) = .ok rest

theorem skipItems_append {item : Document → Except Failure Document} {rest : Document} :
    ∀ {items : List Item} {i : Item}, (∀ i' ∈ i :: items, Skips item i'.value) →
      ∀ {fuel}, items.length < fuel → ∀ {blank : Document}, Blank blank →
      skipItems item fuel (blank ++ i.value ++
        (i.after ++ (items.flatMap Item.listed ++ .char ']' :: rest))) = .ok rest
  | items, i, h, fuel + 1, hfuel, blank, hb => by
    rw [skipItems, h i List.mem_cons_self _ _ hb (ends_after_item i items rest), Except.ok_bind]
    cases items with
    | nil =>
      rw [List.flatMap_nil, List.nil_append, skipSpace_append i.blank_after (solid_cons rfl)]
      rfl
    | cons i' items =>
      have hmore : (i' :: items).flatMap Item.listed ++ .char ']' :: rest =
          .char ',' :: (i'.before ++ i'.value ++
            (i'.after ++ (items.flatMap Item.listed ++ .char ']' :: rest))) := by
        simp [Item.listed, Item.text]
      rw [hmore, skipSpace_append i.blank_after (solid_cons rfl)]
      exact skipItems_append (fun i hi => h i (List.mem_cons_of_mem _ hi))
        (Nat.lt_of_succ_lt_succ hfuel) i'.blank_before

theorem skipMembers_append {value : Document → Except Failure Document} {rest : Document} :
    ∀ {members : List Member} {m : Member}, (∀ m' ∈ m :: members, Skips value m'.value) →
      ∀ {fuel}, members.length < fuel → ∀ {blank : Document}, Blank blank →
      skipMembers value fuel (blank ++ .char '"' :: (m.name ++ (m.middle ++ .char ':' ::
        (m.between ++ m.value ++
          (m.after ++ (members.flatMap Member.listed ++ .char '\x7d' :: rest)))))) = .ok rest
  | members, m, h, fuel + 1, hfuel, blank, hb => by
    have hvalue := h m List.mem_cons_self m.between _ m.blank_between
      (ends_after_member m members rest)
    rw [skipMembers, skipSpace_append hb (solid_cons rfl)]
    simp only [skipText_quoted m.quoted_name, Except.ok_bind, readColon_append m.blank_middle, hvalue]
    cases members with
    | nil =>
      rw [List.flatMap_nil, List.nil_append, skipSpace_append m.blank_after (solid_cons rfl)]
      rfl
    | cons m' members =>
      have hmore : (m' :: members).flatMap Member.listed ++ .char '\x7d' :: rest =
          .char ',' :: (m'.before ++ .char '"' :: (m'.name ++ (m'.middle ++ .char ':' ::
            (m'.between ++ m'.value ++
              (m'.after ++ (members.flatMap Member.listed ++ .char '\x7d' :: rest)))))) := by
        simp [Member.listed, Member.text]
      rw [hmore, skipSpace_append m.blank_after (solid_cons rfl)]
      exact skipMembers_append (fun m hm => h m (List.mem_cons_of_mem _ hm))
        (Nat.lt_of_succ_lt_succ hfuel) m'.blank_before

theorem skipNested_openArray {fuel : Nat} {d d' : Document} (h : skipSpace d = .char '[' :: d') :
    skipNested (fuel + 1) d = match skipSpace d' with
      | .char ']' :: d => .ok d
      | [] => blameNext .endInList []
      | d => skipItems (skipNested fuel) (d.length + 1) d := by
  rw [skipNested, h]
  rfl

theorem skipNested_openObject {fuel : Nat} {d d' : Document} (h : skipSpace d = .char '\x7b' :: d') :
    skipNested (fuel + 1) d = match skipSpace d' with
      | .char '\x7d' :: d => .ok d
      | [] => blameNext .endInObject []
      | d => skipMembers (skipNested fuel) (d.length + 1) d := by
  rw [skipNested, h]
  rfl

theorem skipNested_array {fuel : Nat} {items : List Item} (hstart : ∀ i ∈ items, Starts i.value)
    (h : ∀ i ∈ items, Skips (skipNested fuel) i.value) {pad : Document} (hp : Blank pad) :
    Skips (skipNested (fuel + 1)) (arrayText pad items) := by
  intro blank rest hb hr
  rw [skipNested_openArray (skipSpace_array hb _ _ _)]
  cases items with
  | nil =>
    rw [itemsText, List.append_assoc, List.singleton_append, skipSpace_append hp (solid_cons rfl)]
    rfl
  | cons i items =>
    have hi := hstart i List.mem_cons_self
    have hfirst : pad ++ itemsText (i :: items) ++ rest = pad ++ i.before ++ i.value ++
        (i.after ++ (items.flatMap Item.listed ++ .char ']' :: rest)) := by
      simp [itemsText, Item.text]
    have hs := hi.append (i.after ++ (items.flatMap Item.listed ++ .char ']' :: rest))
    rw [hfirst, hi.skipSpace (hp.append i.blank_before)]
    split
    · next heq => exact absurd heq (hs.ne_cons rfl _)
    · next heq => exact absurd heq hs.ne_nil
    · refine skipItems_append h ?_ blank_nil
      have := length_le_flatMap Item.listed (fun _ => Nat.succ_pos _) items
      simp only [List.length_append, List.length_cons]
      omega

theorem skipNested_object {fuel : Nat} {members : List Member}
    (h : ∀ m ∈ members, Skips (skipNested fuel) m.value) {pad : Document} (hp : Blank pad) :
    Skips (skipNested (fuel + 1)) (objectText pad members) := by
  intro blank rest hb hr
  rw [skipNested_openObject (skipSpace_object hb _ _ _)]
  cases members with
  | nil =>
    rw [membersText, List.append_assoc, List.singleton_append, skipSpace_append hp (solid_cons rfl)]
    rfl
  | cons m members =>
    have hfirst : pad ++ membersText (m :: members) ++ rest = pad ++ m.before ++ .char '"' ::
        (m.name ++ (m.middle ++ .char ':' :: (m.between ++ m.value ++
          (m.after ++ (members.flatMap Member.listed ++ .char '\x7d' :: rest))))) := by
      simp [membersText, Member.text]
    rw [hfirst, skipSpace_append (hp.append m.blank_before) (solid_cons rfl)]
    refine skipMembers_append h ?_ blank_nil
    have := length_le_flatMap Member.listed (fun _ => Nat.succ_pos _) members
    simp only [List.length_append, List.length_cons]
    omega

theorem length_item_lt {items : List Item} {i : Item} (hi : i ∈ items) (pad : Document) :
    i.value.length < (arrayText pad items).length := by
  have hlisted {items : List Item} (hi : i ∈ items) :
      i.value.length ≤ (items.flatMap Item.listed).length := by
    refine Nat.le_trans ?_ (length_le_of_mem Item.listed hi)
    simp only [Item.listed, Item.text, List.length_cons, List.length_append]
    omega
  cases items with
  | nil => cases hi
  | cons i' items =>
    simp only [arrayText, itemsText, Item.text, List.length_cons, List.length_append]
    rcases List.mem_cons.mp hi with rfl | hi
    · omega
    · have := hlisted hi
      omega

theorem length_member_lt {members : List Member} {m : Member} (hm : m ∈ members) (pad : Document) :
    m.value.length < (objectText pad members).length := by
  have hlisted {members : List Member} (hm : m ∈ members) :
      m.value.length ≤ (members.flatMap Member.listed).length := by
    refine Nat.le_trans ?_ (length_le_of_mem Member.listed hm)
    simp only [Member.listed, Member.text, List.length_cons, List.length_append]
    omega
  cases members with
  | nil => cases hm
  | cons m' members =>
    simp only [objectText, membersText, Member.text, List.length_cons, List.length_append]
    rcases List.mem_cons.mp hm with rfl | hm
    · omega
    · have := hlisted hm
      omega

theorem skips_nested {t : Document} (h : IsText t) :
    ∀ {fuel}, t.length < fuel → Skips (skipNested fuel) t := by
  induction h with
  | @scalar t hs =>
    intro fuel hfuel blank rest hb hr
    obtain ⟨fuel, rfl⟩ := Nat.exists_eq_add_one_of_ne_zero (Nat.ne_zero_of_lt hfuel)
    have hskip := hs.skipScalar hr
    obtain ⟨s, t', rfl, hd, harray, hobject⟩ := hs.start
    rw [skipNested, (starts_cons hd).skipSpace hb]
    split
    · next heq => exact absurd (List.cons.inj heq).1 harray
    · next heq => exact absurd (List.cons.inj heq).1 hobject
    · exact hskip
  | @array pad items hp hi ih =>
    intro fuel hfuel
    obtain ⟨fuel, rfl⟩ := Nat.exists_eq_add_one_of_ne_zero (Nat.ne_zero_of_lt hfuel)
    refine skipNested_array (fun i h => (hi i h).starts) (fun i h => ih i h ?_) hp
    exact Nat.lt_of_lt_of_le (length_item_lt h pad) (Nat.le_of_lt_succ hfuel)
  | @object pad members hp hm ih =>
    intro fuel hfuel
    obtain ⟨fuel, rfl⟩ := Nat.exists_eq_add_one_of_ne_zero (Nat.ne_zero_of_lt hfuel)
    refine skipNested_object (fun m h => ih m h ?_) hp
    exact Nat.lt_of_lt_of_le (length_member_lt h pad) (Nat.le_of_lt_succ hfuel)

/-- A value is skipped, whatever comes after it. -/
theorem skipValue_append {t : Document} (h : IsText t) : Skips skipValue t := by
  intro blank rest hb hr
  refine skips_nested h ?_ blank rest hb hr
  simp only [List.length_append]
  omega

end MicroFrontends.Json
