import MicroFrontends.Json.Record
import MicroFrontends.Proofs.Json.Decoders

/-!
# What records make of texts

The decoder of a record whose fields have lawful decoders is lawful (`Record.lawful_decoder`). Of an
object it makes a fold over the members (`Record.makes_object`), each of which is a step of the draft
(`Record.step`).
-/

namespace MicroFrontends.Json

theorem require_eq_ok {α : Type} {name : String} {o : Option α} {v : α} :
    require name o = .ok v ↔ o = some v := by
  cases o <;> simp [require]

theorem Slot.lawful {σ α : Type} {name : String} {get? : σ → Option α} {put : σ → α → σ}
    {decoder : Decoder α} {isOptional : Bool} (h : decoder.Lawful) :
    (Slot.of name get? put decoder isOptional).fill.Lawful := Decoder.lawful_refine h _

namespace Record

variable {σ α : Type} {r : Record σ α} {room : Nat} {pad : Document} {members : List Member}
  {items : List Item}

/-- The decoders of all fields are lawful. -/
def Lawful (r : Record σ α) : Prop := ∀ slot ∈ r.slots, slot.fill.Lawful

theorem mem_slots {name : String} {slot : Slot σ} (h : r.slot? name = some slot) : slot ∈ r.slots :=
  List.mem_of_find?_eq_some h

/-! ## Objects -/

/-- What a member with a name makes of a draft and the members kept so far. -/
def step (r : Record σ α) (room : Nat) (state : State σ) (name : String) (m : Member) :
    Option (State σ) :=
  match r.slot? name with
  | some slot =>
    if slot.isFilled state.1 then none
    else (whole? (slot.fill.live room) m.value).map fun set => (set state.1, state.2)
  | none =>
    if r.isOpen then (whole? (readValue room) m.value).map fun v =>
      (state.1, state.2 ++ [(name, v)])
    else some state

theorem makes_member (hr : r.Lawful) {m : Member} (hm : IsText m.value) (state : State σ)
    (name : String) : m.Makes (r.readMember room state name) (r.step room state name m) := by
  unfold readMember step
  cases hslot : r.slot? name with
  | some slot =>
    dsimp only
    split
    · exact fun _ _ => rfl
    · exact .of_value ((hr slot (mem_slots hslot)).exact hm room) fun set =>
        (set state.1, state.2)
  | none =>
    by_cases ho : r.isOpen
    · simp only [ho, if_true]
      exact .of_value (hm.exact_value room) fun v => (state.1, state.2 ++ [(name, v)])
    · intro rest hrest
      simp only [ho, Bool.false_eq_true, if_false]
      rw [readColon_append m.blank_middle, Except.ok_bind,
        skipValue_append hm _ _ m.blank_between hrest]
      rfl

theorem read_openObject {d d' : Document} (h : skipSpace d = .char '\x7b' :: d') :
    r.read (room + 1) d = insideObject (fun d => do
      let (state, rest) ← readMembers (r.readMember room) (d.length + 1) true (r.start, []) d
      conclude (fun s => r.finish s.1 s.2) state rest) d' := by
  rw [read, h]
  rfl

/-- A record makes of an object a fold over its members. -/
theorem makes_object (hr : r.Lawful) (hp : Blank pad) (hm : ∀ m ∈ members, IsText m.value) :
    Makes (r.read (room + 1)) (objectText pad members)
      ((members.foldlM (memberStep (r.step room)) (r.start, [])).bind fun s =>
        (r.finish s.1 s.2).toOption) := by
  intro blank rest hb hrest
  have hlen := length_le_membersText members
  rw [read_openObject (skipSpace_object hb pad members rest)]
  refine toOption_insideObject ?_
  rw [Except.toOption_bind, toOption_readMembers
    (fun m h state name => makes_member hr (hm m h) state name) ?_ _ (.first hp)]
  · cases members.foldlM (memberStep (r.step room)) (r.start, []) with
    | none => rfl
    | some s => exact toOption_conclude _ s _
  · simp only [List.length_append]
    omega

theorem makes_object_zero (pad : Document) (members : List Member) :
    Makes (r.read 0) (objectText pad members) none := by
  intro blank rest hb hr
  rw [read, skipSpace_object hb]
  rfl

theorem toOption_ofMembers (ms : List (String × Json)) : (r.ofMembers ms).toOption =
    (ms.foldlM (fun state m => (r.addMember state m).toOption) (r.start, [])).bind fun s =>
      (r.finish s.1 s.2).toOption := by
  rw [ofMembers, Except.toOption_bind, toOption_foldlM]

/-- The members of an object and the values that are read from them make the same record. -/
theorem foldlM_step (hr : r.Lawful) (hm : ∀ m ∈ members, IsText m.value)
    {ms : List (String × Json)} (hms : members.mapM (Member.pair? (readValue room)) = some ms)
    (state : State σ) : members.foldlM (memberStep (r.step room)) state =
      ms.foldlM (fun state m => (r.addMember state m).toOption) state := by
  refine foldlM_congr (mapM_eq_some_iff.mp hms) (fun m h p hp state => ?_) state
  obtain ⟨hname, hvalue⟩ := Member.pair?_eq_some.mp hp
  rw [memberStep, hname, Option.bind_some, step, addMember]
  cases hslot : r.slot? p.1 with
  | some slot =>
    dsimp only
    split
    · rfl
    · rw [(hr slot (mem_slots hslot)).agrees (hm m h) hvalue]
      cases slot.fill.kept p.2 <;> rfl
  | none =>
    dsimp only
    split
    · rw [hvalue]; rfl
    · rfl

/-! ## Arrays -/

/-- The draft after fields have been taken from the items in order, and the items that are left. -/
def takeSlots (room : Nat) : List (Slot σ) → σ → List Item → Option (σ × List Item)
  | [], draft, items => some (draft, items)
  | slot :: slots, draft, i :: items =>
    (whole? (slot.fill.live room) i.value).bind fun set => takeSlots room slots (set draft) items
  | slot :: slots, draft, [] => if slot.isOptional then takeSlots room slots draft [] else none

theorem toOption_readSlots (r : Record σ α) (room : Nat) {rest : Document} : ∀ {slots : List (Slot σ)},
    (∀ slot ∈ slots, slot.fill.Lawful) → ∀ {items : List Item}, (∀ i ∈ items, IsText i.value) →
    ∀ (index : Nat) (draft : σ) {d : Document}, AtItems rest (decide (index = 0)) items d →
    match takeSlots room slots draft items with
    | some (draft', left) => ∃ first d', AtItems rest first left d' ∧
        (r.readSlots room slots index draft d).toOption = some (draft', d')
    | none => (r.readSlots room slots index draft d).toOption = none
  | [], _, _, _, _, _, d, hd => ⟨_, d, hd, rfl⟩
  | slot :: slots, hslots, i :: items, hi, index, draft, d, hd => by
    have hexact := (hslots slot List.mem_cons_self).exact (hi i List.mem_cons_self) room
    have hread := hexact.at_start (ends_after_item i items rest)
    have hnext : (r.readSlots room (slot :: slots) index draft d).toOption =
        (whole? (slot.fill.live room) i.value).bind fun set =>
          (r.readSlots room slots (index + 1) (set draft)
            (i.after ++ (items.flatMap Item.listed ++ .char ']' :: rest))).toOption := by
      rw [readSlots, hd.nextItem_cons (hi i List.mem_cons_self).starts, Item.onward]
      simp only [Except.ok_bind, if_true, Except.toOption_bind, hread]
      cases whole? (slot.fill.live room) i.value <;> rfl
    rw [takeSlots, hnext]
    cases whole? (slot.fill.live room) i.value with
    | none => rfl
    | some set =>
      exact toOption_readSlots r room (fun s hs => hslots s (List.mem_cons_of_mem _ hs))
        (fun i h => hi i (List.mem_cons_of_mem _ h)) (index + 1) (set draft)
        (AtItems.after_item i items rest)
  | slot :: slots, hslots, [], hi, index, draft, d, hd => by
    have hlater : AtItems rest (decide (index + 1 = 0)) [] (.char ']' :: rest) := .later blank_nil
    rw [takeSlots, readSlots, hd.nextItem_nil]
    by_cases ho : slot.isOptional
    · simp only [Except.ok_bind, Bool.false_eq_true, if_false, ho, if_true]
      exact toOption_readSlots r room (fun s hs => hslots s (List.mem_cons_of_mem _ hs)) hi (index + 1)
        draft hlater
    · simp only [Except.ok_bind, Bool.false_eq_true, if_false, ho]
      rfl

/-- The record that items make, all of which have to be taken. -/
def ofTaken (r : Record σ α) (room : Nat) (items : List Item) : Option α :=
  (takeSlots room r.slots r.start items).bind fun p =>
    (r.finish p.1 []).toOption.bind fun v => if p.2.isEmpty then some v else none

theorem read_openArray (ho : r.isOpen = false) {d d' : Document} (h : skipSpace d = .char '[' :: d') :
    r.read (room + 1) d = insideArray (fun d => do
      let (draft, rest) ← r.readSlots room r.slots 0 r.start d
      conclude (r.finish · []) draft rest) d' := by
  rw [read, h]
  simp only [ho, Bool.false_eq_true, if_false]
  rfl

theorem mem_of_takeSlots {slots : List (Slot σ)} {draft draft' : σ} {left : List Item}
    (h : takeSlots room slots draft items = some (draft', left)) : ∀ i ∈ left, i ∈ items := by
  induction slots generalizing draft items with
  | nil => cases h; exact fun _ hi => hi
  | cons slot slots ih =>
    cases items with
    | nil =>
      rw [takeSlots] at h
      split at h
      · exact ih h
      · cases h
    | cons i items =>
      obtain ⟨set, -, h⟩ := Option.bind_eq_some_iff.mp h
      exact fun i' hi' => List.mem_cons_of_mem _ (ih h i' hi')

/-- A plain record takes its fields from the items of an array in order. -/
theorem makes_array (hr : r.Lawful) (ho : r.isOpen = false) (hp : Blank pad)
    (hi : ∀ i ∈ items, IsText i.value) :
    Makes (r.read (room + 1)) (arrayText pad items) (r.ofTaken room items) := by
  intro blank rest hb hrest
  have hread := r.toOption_readSlots room hr hi 0 r.start (.first hp : AtItems rest true items _)
  rw [read_openArray ho (skipSpace_array hb pad items rest), toOption_insideArray rfl,
    Except.toOption_bind, ofTaken]
  cases htake : takeSlots room r.slots r.start items with
  | none =>
    rw [htake] at hread
    rw [hread]
    rfl
  | some p =>
    obtain ⟨draft, left⟩ := p
    rw [htake] at hread
    obtain ⟨first, d, hd, hread⟩ := hread
    simp only [hread, Option.bind_some, toOption_conclude]
    cases r.finish draft [] with
    | error e => rfl
    | ok v =>
      simp only [Except.toOption_ok, Option.map_some, Option.bind_some]
      cases left with
      | nil => rw [hd.closeArray_nil]; rfl
      | cons i left =>
        have hmem := hi i (mem_of_takeSlots htake i List.mem_cons_self)
        rw [hd.closeArray_cons hmem.starts]
        rfl

theorem length_takeSlots {slots : List (Slot σ)} {draft draft' : σ} {left : List Item}
    (h : takeSlots room slots draft items = some (draft', left)) :
    left.length = items.length - slots.length := by
  induction slots generalizing draft items with
  | nil => cases h; rfl
  | cons slot slots ih =>
    cases items with
    | nil =>
      rw [takeSlots] at h
      split at h
      · simpa using ih h
      · cases h
    | cons i items =>
      obtain ⟨set, -, h⟩ := Option.bind_eq_some_iff.mp h
      simpa using ih h

theorem toOption_fillSlots : ∀ {slots : List (Slot σ)}, (∀ slot ∈ slots, slot.fill.Lawful) →
    ∀ {items : List Item} {vs : List Json}, (∀ i ∈ items, IsText i.value) →
    List.Forall₂ (fun i v => whole? (readValue room) i.value = some v) items vs →
    ∀ (index : Nat) (draft : σ), (r.fillSlots slots index draft vs).toOption =
      (takeSlots room slots draft items).map Prod.fst
  | [], _, _, _, _, _, _, _ => rfl
  | slot :: slots, hslots, _, _, hi, .nil, index, draft => by
    rw [fillSlots, takeSlots]
    split
    · exact toOption_fillSlots (fun s hs => hslots s (List.mem_cons_of_mem _ hs)) hi .nil _ _
    · rfl
  | slot :: slots, hslots, i :: _, v :: _, hi, .cons hv hvs, index, draft => by
    have hagrees := (hslots slot List.mem_cons_self).agrees (hi i List.mem_cons_self) hv
    rw [fillSlots, takeSlots, Except.toOption_bind, ← hagrees]
    cases whole? (slot.fill.live room) i.value with
    | none => rfl
    | some set =>
      exact toOption_fillSlots (fun s hs => hslots s (List.mem_cons_of_mem _ hs))
        (fun i h => hi i (List.mem_cons_of_mem _ h)) hvs _ _

theorem toOption_ofItems (hr : r.Lawful) (hi : ∀ i ∈ items, IsText i.value) {vs : List Json}
    (hvs : items.mapM (fun i => whole? (readValue room) i.value) = some vs) :
    (r.ofItems vs).toOption = r.ofTaken room items := by
  have hall := mapM_eq_some_iff.mp hvs
  rw [ofItems, Except.toOption_bind, toOption_fillSlots hr hi hall, ofTaken]
  cases htake : takeSlots room r.slots r.start items with
  | none => rfl
  | some p =>
    have hlen := length_takeSlots htake
    simp only [Option.map_some, Option.bind_some, Except.toOption_bind]
    cases r.finish p.1 [] with
    | error e => rfl
    | ok v =>
      simp only [Except.toOption_ok, Option.bind_some, ← hall.length_eq]
      by_cases hle : items.length ≤ r.slots.length
      · have hnil : p.2.isEmpty = true := by
          rw [List.isEmpty_iff_length_eq_zero]
          omega
        simp [hle, hnil]
      · have hnil : p.2.isEmpty = false := by
          rw [← Bool.not_eq_true, List.isEmpty_iff_length_eq_zero]
          omega
        simp [hle, hnil]

/-! ## All texts -/

theorem makes_array_zero (pad : Document) (items : List Item) :
    Makes (r.read 0) (arrayText pad items) none := by
  intro blank rest hb hr
  rw [read, skipSpace_array hb]
  by_cases ho : r.isOpen
  · simp only [ho, if_true]
    exact toOption_blameType _ _
  · simp only [ho, Bool.false_eq_true, if_false]
    rfl

theorem makes_array_open (ho : r.isOpen = true) (pad : Document) (items : List Item) :
    Makes (r.read room) (arrayText pad items) none := by
  intro blank rest hb hr
  rw [read, skipSpace_array hb]
  simp only [ho, if_true]
  exact toOption_blameType _ _

theorem makes_other {t : Document} (ht : Starts t) (harray : HeadNe '[' t) (hobject : HeadNe '\x7b' t) :
    Makes (r.read room) t none := by
  intro blank rest hb hr
  rw [read, ht.skipSpace hb]
  split
  · next heq => exact absurd heq (hobject.append ht rest _)
  · next heq => exact absurd heq (harray.append ht rest _)
  · exact toOption_blameType _ _

/-! ## Any value -/

theorem takes_readMember (hr : r.Lawful) (s : State σ)
    (name : String) : TakesMember (r.readMember room s name) := by
  intro d s' rest h
  unfold readMember at h
  split at h
  · next slot hslot =>
    split at h
    · cases h
    · exact ((hr slot (mem_slots hslot)).takes room).member (fun set => (set s.1, s.2)) h
  · obtain ⟨d₁, hcolon, h⟩ := Except.bind_eq_ok.mp h
    refine ⟨d₁, hcolon, ?_⟩
    split at h
    · exact (takes_readValue room).map (fun v => (s.1, s.2 ++ [(name, v)])) h
    · obtain ⟨d₂, hskip, h⟩ := Except.bind_eq_ok.mp h
      cases h
      exact hasValue_of_skipValue hskip

/-- Fields that are read up to the end of an array. -/
theorem form_of_readSlots (r : Record σ α) {left : Document} (hclose : closeArray left = .ok rest) :
    ∀ {slots : List (Slot σ)}, (∀ slot ∈ slots, slot.fill.Lawful) → ∀ index {draft draft' : σ}
      {d : Document}, r.readSlots room slots index draft d = .ok (draft', left) →
      ∃ items, (∀ i ∈ items, IsText i.value) ∧ AtItems rest (index = 0) items d
  | [], _, _, _, _, _, hread => by
    cases hread
    exact ⟨[], List.forall_mem_nil _, .nil (closeArray_eq_ok hclose)⟩
  | slot :: slots, h, index, draft, draft', d, hread => by
    rw [readSlots] at hread
    obtain ⟨⟨more, d₁⟩, hnext, hread⟩ := Except.bind_eq_ok.mp hread
    have hslots := form_of_readSlots r hclose fun slot hs => h slot (List.mem_cons_of_mem _ hs)
    cases more with
    | true =>
      obtain ⟨⟨set, d₂⟩, hset, hread⟩ := Except.bind_eq_ok.mp hread
      obtain ⟨items, hi, hat⟩ := hslots _ hread
      obtain ⟨i, ht, hat⟩ := form_of_nextItem hnext ((h slot List.mem_cons_self).takes room hset) hat
      exact ⟨i :: items, List.forall_mem_cons.mpr ⟨ht, hi⟩, hat⟩
    | false =>
      obtain ⟨rest', rfl, hd⟩ := skipSpace_of_nextItem hnext
      dsimp only at hread
      rw [if_neg Bool.false_ne_true] at hread
      split at hread
      · obtain ⟨items, hi, hat⟩ := hslots _ hread
        exact ⟨[], List.forall_mem_nil _, .nil (hat.rest_eq ▸ hd)⟩
      · cases hread

theorem takes_read (hr : r.Lawful) (room : Nat) : Takes (r.read room) := by
  intro d a rest hread
  have hopened := hread
  unfold read at hopened
  split at hopened
  · next hopen =>
    cases room with
    | zero => cases hopened
    | succ room =>
      rw [read_openObject hopen] at hread
      obtain ⟨left, hbody, hclose⟩ := insideObject_eq_ok hread
      obtain ⟨⟨s, left'⟩, hs, ha⟩ := Except.bind_eq_ok.mp hbody
      obtain rfl := (conclude_eq_ok ha).2
      obtain ⟨rest', members, rfl, hm, hat⟩ := form_of_readMembers (takes_readMember hr) _ _ hs
      cases hclose
      exact hasValue_of_members hopen hm hat
  · next hopen =>
    split at hopened
    · exact absurd hopened blameType_ne_ok
    · next ho =>
      cases room with
      | zero => cases hopened
      | succ room =>
        rw [read_openArray (Bool.not_eq_true _ ▸ ho) hopen] at hread
        obtain ⟨left, hbody, hclose⟩ := insideArray_eq_ok hread
        obtain ⟨⟨draft, left'⟩, hdraft, ha⟩ := Except.bind_eq_ok.mp hbody
        obtain rfl := (conclude_eq_ok ha).2
        obtain ⟨items, hi, hat⟩ := form_of_readSlots r hclose hr 0 hdraft
        exact hasValue_of_items hopen hi hat
  · exact absurd hopened blameType_ne_ok

/-- The decoder of a record is lawful if those of its fields are. -/
theorem lawful_decoder (hr : r.Lawful) : r.decoder.Lawful where
  takes := takes_read hr
  exact {t} h room := by
    show Exact (r.read room) t
    cases h with
    | scalar hs =>
      cases hs with
      | number hn => exact (makes_other hn.starts (hn.headNe (by decide) rfl)
          (hn.headNe (by decide) rfl)).exact
      | _ => exact (makes_other (starts_cons rfl) (by nofun) (by nofun)).exact
    | array hp hi =>
      cases ho : r.isOpen with
      | true => exact (makes_array_open ho _ _).exact
      | false =>
        cases room with
        | zero => exact (makes_array_zero _ _).exact
        | succ room => exact (makes_array hr ho hp hi).exact
    | object hp hm =>
      cases room with
      | zero => exact (makes_object_zero _ _).exact
      | succ room => exact (makes_object hr hp hm).exact
  agrees {t} h {room v} hv := by
    show whole? (r.read room) t = _
    cases h.readAs hv with
    | @object room pad members ms hp hm hms =>
      rw [(makes_object hr hp hm).whole?_eq, foldlM_step hr hm hms]
      exact (toOption_ofMembers ms).symm
    | @array room pad items vs hp hi hvs =>
      cases ho : r.isOpen with
      | true =>
        rw [(makes_array_open ho _ _).whole?_eq]
        simp [decoder, ho, refuse]
      | false =>
        rw [(makes_array hr ho hp hi).whole?_eq, ← toOption_ofItems hr hi hvs]
        simp [decoder, ho]
    | float hn => exact (makes_other hn.starts (hn.headNe (by decide) rfl)
        (hn.headNe (by decide) rfl)).whole?_eq
    | int hn => exact (makes_other hn.starts (hn.headNe (by decide) rfl)
        (hn.headNe (by decide) rfl)).whole?_eq
    | _ => exact (makes_other (starts_cons rfl) (by nofun) (by nofun)).whole?_eq

end Record

end MicroFrontends.Json
