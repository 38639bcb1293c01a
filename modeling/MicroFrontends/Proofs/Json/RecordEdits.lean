import Mathlib.Data.List.Pairwise
import MicroFrontends.Proofs.Json.Edits

/-!
# Records of texts that were changed

The members of an object are dealt out among the fields of a record and, if it is open, the members
that it keeps for the record that shares the object with it (`Record.foldlM_step_eq`). The order in
which fields are filled does not matter, and members that are no field of either record are left out
in the end. So records respect all changes of their texts (`Record.respects`).
-/

namespace MicroFrontends.Json

variable {σ τ α β : Type}

/-! ## Fields -/

/-- It does not matter in which order the two fields are filled. -/
structure Slot.Apart (a b : Slot σ) : Prop where
  commute {ra rb : Nat} {ta tb : Document} {set set' : σ → σ}
    (ha : whole? (a.fill.live ra) ta = some set) (hb : whole? (b.fill.live rb) tb = some set')
    (draft : σ) : set (set' draft) = set' (set draft)
  left {room : Nat} {t : Document} {set : σ → σ} (hb : whole? (b.fill.live room) t = some set)
    (draft : σ) : a.isFilled (set draft) = a.isFilled draft
  right {room : Nat} {t : Document} {set : σ → σ} (ha : whole? (a.fill.live room) t = some set)
    (draft : σ) : b.isFilled (set draft) = b.isFilled draft

instance : Std.Symm (Slot.Apart (σ := σ)) where
  symm _ _ h := ⟨fun hb ha draft => (h.commute ha hb draft).symm, h.right, h.left⟩

section
variable {name name' : String} {get? : σ → Option α} {put : σ → α → σ} {decoder : Decoder α}
  {isOptional isOptional' : Bool} {get?' : σ → Option β} {put' : σ → β → σ} {decoder' : Decoder β}

theorem Slot.exists_of_fill {room : Nat} {t : Document} {set : σ → σ}
    (h : whole? ((Slot.of name get? put decoder isOptional).fill.live room) t = some set) :
    ∃ v, set = fun draft => put draft v := by
  obtain ⟨⟨set, rest⟩, hread, rfl⟩ := Option.map_eq_some_iff.mp h
  obtain ⟨⟨v, r⟩, -, hset⟩ := Except.bind_eq_ok.mp (Except.toOption_eq_some.mp hread)
  exact ⟨v, (Except.ok.inj (conclude_eq_ok hset).1).symm⟩

/-- Two fields are apart if `put` and `put'` fill different parts of the draft. Of the slots of a
record `simp` shows this pair by pair. -/
@[simp] theorem Slot.apart (hcommute : ∀ draft v w, put (put' draft w) v = put' (put draft v) w)
    (hleft : ∀ draft w, get? (put' draft w) = get? draft)
    (hright : ∀ draft v, get?' (put draft v) = get?' draft) :
    (Slot.of name get? put decoder isOptional).Apart
      (Slot.of name' get?' put' decoder' isOptional') where
  commute ha hb draft := by
    obtain ⟨v, rfl⟩ := exists_of_fill ha
    obtain ⟨w, rfl⟩ := exists_of_fill hb
    exact hcommute draft v w
  left hb draft := by
    obtain ⟨w, rfl⟩ := exists_of_fill hb
    exact congrArg Option.isSome (hleft draft w)
  right ha draft := by
    obtain ⟨v, rfl⟩ := exists_of_fill ha
    exact congrArg Option.isSome (hright draft v)

end

namespace Record

variable {r : Record σ α} {room : Nat} {ms ms' : List Member}

/-! ## Members that are fields, and others -/

theorem name_of_slot? {name : String} {slot : Slot σ} (h : r.slot? name = some slot) :
    slot.name = name := by
  have hbeq : (slot.name == name) = true := List.find?_some (p := fun s : Slot σ => s.name == name) h
  exact eq_of_beq hbeq

/-- The field that the member is of the record. -/
def field? (r : Record σ α) (m : Member) : Option (Slot σ) := m.name?.bind r.slot?

def isField (r : Record σ α) (m : Member) : Bool := (r.field? m).isSome

/-- What a member that is a field makes of the draft. -/
def fillStep (r : Record σ α) (room : Nat) (draft : σ) (m : Member) : Option σ :=
  (r.field? m).bind fun slot =>
    if slot.isFilled draft then none
    else (whole? (slot.fill.live room) m.value).map fun set => set draft

/-- What a record keeps of a member that is no field of it. -/
def keepOne (r : Record σ α) (room : Nat) (m : Member) : Option (List (String × Json)) :=
  if r.isOpen then (m.pair? (readValue room)).map ([·]) else m.name?.map fun _ => []

/-- What a record keeps of members that are no field of it. -/
def keep (r : Record σ α) (room : Nat) (ms : List Member) : Option (List (String × Json)) :=
  (ms.mapM (r.keepOne room)).map List.flatten

theorem keep_cons (r : Record σ α) (room : Nat) (m : Member) (ms : List Member) :
    r.keep room (m :: ms) = (r.keepOne room m).bind fun kept => (r.keep room ms).map (kept ++ ·) := by
  rw [keep, mapM_option_cons, keep]
  cases r.keepOne room m with
  | none => rfl
  | some kept => cases ms.mapM (r.keepOne room) <;> rfl

theorem memberStep_of_field {m : Member} {slot : Slot σ} (h : r.field? m = some slot) (draft : σ)
    (others : List (String × Json)) : memberStep (r.step room) (draft, others) m =
      (r.fillStep room draft m).map (·, others) := by
  obtain ⟨name, hname, hslot⟩ := Option.bind_eq_some_iff.mp h
  rw [memberStep, hname, Option.bind_some, step, hslot, fillStep, h, Option.bind_some]
  dsimp only
  split
  · rfl
  · cases whole? (slot.fill.live room) m.value <;> rfl

theorem memberStep_of_other {m : Member} (h : r.field? m = none) (draft : σ)
    (others : List (String × Json)) : memberStep (r.step room) (draft, others) m =
      (r.keepOne room m).map fun kept => (draft, others ++ kept) := by
  rw [memberStep, keepOne, Member.pair?]
  rw [field?] at h
  cases hname : m.name? with
  | none => simp
  | some name =>
    rw [hname, Option.bind_some] at h
    rw [Option.bind_some, step, h]
    dsimp only
    split
    · cases whole? (readValue room) m.value <;> rfl
    · simp

/-- Fields are filled and other members are kept, each without regard to the other. -/
theorem foldlM_step_eq (r : Record σ α) (room : Nat) (ms : List Member) (draft : σ)
    (others : List (String × Json)) : ms.foldlM (memberStep (r.step room)) (draft, others) =
      ((ms.filter r.isField).foldlM (r.fillStep room) draft).bind fun draft' =>
        (r.keep room (ms.filter (!r.isField ·))).map fun kept => (draft', others ++ kept) := by
  induction ms generalizing draft others with
  | nil => simp [keep]
  | cons m ms ih =>
    rw [List.foldlM_cons, List.filter_cons, List.filter_cons, isField]
    cases hf : r.field? m with
    | none =>
      simp only [Option.isSome_none, Bool.false_eq_true, if_false, Bool.not_false, if_true, keep_cons,
        memberStep_of_other hf]
      cases r.keepOne room m with
      | none => simp
      | some kept =>
        refine (ih draft (others ++ kept)).trans ?_
        simp [Function.comp_def]
    | some slot =>
      simp only [Option.isSome_some, if_true, Bool.not_true, Bool.false_eq_true, if_false,
        List.foldlM_cons, memberStep_of_field hf]
      cases r.fillStep room draft m with
      | none => rfl
      | some draft' => exact ih draft' others

theorem isSome_keepOne {m : Member} : (r.keepOne room m).isSome ↔
    m.name?.isSome ∧ (r.isOpen → (whole? (readValue room) m.value).isSome) := by
  rw [keepOne]
  split
  · next ho => rw [Option.isSome_map, Member.isSome_pair?]; simp [ho]
  · next ho => rw [Option.isSome_map]; simp [ho]

theorem exists_keep (h : ∀ m ∈ ms, (r.keepOne room m).isSome) :
    ∃ kept, r.keep room ms = some kept := by
  obtain ⟨ls, hls⟩ := Option.isSome_iff_exists.mp (isSome_mapM.mpr h)
  exact ⟨ls.flatten, by rw [keep, hls, Option.map_some]⟩

/-- The record is made of the draft and of what is kept of the other members. -/
def Concludes (r : Record σ α) (room : Nat) (others : List Member) (draft : σ) (a : α) : Prop :=
  ∃ kept, r.keep room others = some kept ∧ r.finish draft kept = .ok a

theorem Concludes.isSome {others : List Member} {draft : σ} {a : α}
    (h : r.Concludes room others draft a) : ∀ m ∈ others, (r.keepOne room m).isSome := by
  obtain ⟨kept, hkept, -⟩ := h
  obtain ⟨ls, hls, -⟩ := Option.map_eq_some_iff.mp hkept
  exact isSome_mapM.mp (hls ▸ rfl)

theorem object_eq_some (hr : r.Lawful) {blank : Document} (hb : Blank blank)
    (hm : ∀ m ∈ ms, IsText m.value) {a : α} :
    whole? (r.decoder.live room) (objectText blank ms) = some a ↔ 0 < room ∧ ∃ draft,
      (ms.filter r.isField).foldlM (r.fillStep (room - 1)) r.start = some draft ∧
        r.Concludes (room - 1) (ms.filter (!r.isField ·)) draft a := by
  show whole? (r.read room) (objectText blank ms) = some a ↔ _
  cases room with
  | zero => simp [(makes_object_zero blank ms).whole?_eq]
  | succ room =>
    rw [(makes_object hr hb hm).whole?_eq, foldlM_step_eq]
    simp [Concludes, Option.bind_eq_some_iff, Except.toOption_eq_some]

/-! ## Fields of changed texts -/

/-- The fields have these names, in order, and respect what is known of them. -/
def FieldsOf (slots : List (Slot σ)) (own : List (String × Schema)) : Prop :=
  List.Forall₂ (fun slot f => slot.name = f.1 ∧ slot.fill.Respects f.2) slots own

theorem fieldsOf_cons {name : String} {get? : σ → Option β} {put : σ → β → σ} {decoder : Decoder β}
    {isOptional : Bool} {S : Schema} {slots : List (Slot σ)} {own : List (String × Schema)}
    (hlawful : decoder.Lawful) (h : decoder.Respects S) (hrest : FieldsOf slots own) :
    FieldsOf (Slot.of name get? put decoder isOptional :: slots) ((name, S) :: own) :=
  .cons ⟨rfl, h.refine hlawful _⟩ hrest

theorem fillStep_comm (hapart : r.slots.Pairwise Slot.Apart) {m m' : Member}
    (hname : m.name? ≠ m'.name?) (draft : σ) :
    (r.fillStep room draft m).bind (r.fillStep room · m') =
      (r.fillStep room draft m').bind (r.fillStep room · m) := by
  simp only [fillStep]
  cases hf : r.field? m with
  | none => simp
  | some slot =>
    cases hf' : r.field? m' with
    | none => simp
    | some slot' =>
      obtain ⟨name, hn, hslot⟩ := Option.bind_eq_some_iff.mp hf
      obtain ⟨name', hn', hslot'⟩ := Option.bind_eq_some_iff.mp hf'
      have hne : slot ≠ slot' := by
        rintro rfl
        exact hname (by rw [hn, hn', ← name_of_slot? hslot, ← name_of_slot? hslot'])
      have hap := hapart.forall (mem_slots hslot) (mem_slots hslot') hne
      cases hset : whole? (slot.fill.live room) m.value with
      | none => simp [hset]
      | some set =>
        cases hset' : whole? (slot'.fill.live room) m'.value with
        | none => simp [hset']
        | some set' =>
          by_cases hfilled : slot.isFilled draft <;> by_cases hfilled' : slot'.isFilled draft <;>
            simp [hset, hset', hfilled, hfilled', hap.left hset', hap.right hset,
              hap.commute hset hset']

section
variable {own more : List (String × Schema)}

theorem exists_schema (more : List (String × Schema)) {slots : List (Slot σ)}
    (h : FieldsOf slots own) {name : String} {slot : Slot σ}
    (hslot : slots.find? (·.name == name) = some slot) :
    ∃ S, (own ++ more).lookup name = some S ∧ slot.fill.Respects S := by
  induction h with
  | nil => cases hslot
  | @cons slot' f slots own hf _ ih =>
    rw [List.cons_append, List.lookup_cons]
    rw [List.find?_cons, hf.1, BEq.comm] at hslot
    cases hbeq : name == f.1 with
    | true =>
      rw [hbeq] at hslot
      obtain rfl := Option.some.inj hslot
      exact ⟨f.2, rfl, hf.2⟩
    | false =>
      rw [hbeq] at hslot
      exact ih hslot

theorem mem_of_find? {slots : List (Slot σ)} (h : FieldsOf slots own) {name : String}
    {slot : Slot σ} (hslot : slots.find? (·.name == name) = some slot) : name ∈ own.map Prod.fst := by
  obtain ⟨f, hf, hname, -⟩ := exists_of_forall₂ h.flip (List.mem_of_find?_eq_some hslot)
  have hbeq : (slot.name == name) = true := List.find?_some (p := fun s : Slot σ => s.name == name) hslot
  exact List.mem_map.mpr ⟨f, hf, hname.symm.trans (eq_of_beq hbeq)⟩

theorem lookup_of_find?_eq_none {slots : List (Slot σ)} (h : FieldsOf slots own) {name : String}
    (hslot : slots.find? (·.name == name) = none) :
    (own ++ more).lookup name = more.lookup name := by
  induction h with
  | nil => rfl
  | @cons slot' f slots own hf _ ih =>
    rw [List.cons_append, List.lookup_cons]
    rw [List.find?_cons, hf.1, BEq.comm] at hslot
    cases hbeq : name == f.1 with
    | true => rw [hbeq] at hslot; cases hslot
    | false =>
      rw [hbeq] at hslot
      exact ih hslot

end

/-! ## Arrays -/

/-- What is left of a changed array after fields have been taken from it is empty if it was. -/
theorem takeSlots_replace {slots : List (Slot σ)} {own more : List (String × Schema)}
    (h : FieldsOf slots own)
    {is is' : List Item} {i : Item} {value : Document}
    (hedit : Edit ((Schema.record (own ++ more)).item is.length) room i.value value) {draft draft' : σ}
    {left : List Item} (htake : takeSlots room slots draft (is ++ i :: is') = some (draft', left)) :
    ∃ left', takeSlots room slots draft (is ++ i.withValue value :: is') = some (draft', left') ∧
      left'.isEmpty = left.isEmpty := by
  induction h generalizing is draft with
  | nil =>
    cases htake
    exact ⟨is ++ i.withValue value :: is', rfl, by cases is <;> rfl⟩
  | @cons slot f slots own hf _ ih =>
    cases is with
    | nil =>
      obtain ⟨set, hset, htake⟩ := Option.bind_eq_some_iff.mp htake
      have hset' := hf.2 hedit hset
      exact ⟨left, Option.bind_eq_some_iff.mpr ⟨set, hset', htake⟩, rfl⟩
    | cons i₁ is =>
      obtain ⟨set, hset, htake⟩ := Option.bind_eq_some_iff.mp htake
      obtain ⟨left', htake', hempty⟩ := ih hedit htake
      exact ⟨left', Option.bind_eq_some_iff.mpr ⟨set, hset, htake'⟩, hempty⟩

theorem array_eq_some (hr : r.Lawful) (ho : r.isOpen = false) {is : List Item} {blank : Document}
    (hb : Blank blank) (hi : ∀ i ∈ is, IsText i.value) {a : α} :
    whole? (r.decoder.live room) (arrayText blank is) = some a ↔ 0 < room ∧ ∃ draft left,
      takeSlots (room - 1) r.slots r.start is = some (draft, left) ∧ r.finish draft [] = .ok a ∧
        left.isEmpty = true := by
  show whole? (r.read room) (arrayText blank is) = some a ↔ _
  cases room with
  | zero => simp [(makes_array_zero blank is).whole?_eq]
  | succ room =>
    rw [(makes_array hr ho hb hi).whole?_eq, ofTaken]
    simp only [Option.bind_eq_some_iff, Prod.exists, Except.toOption_eq_some]
    constructor
    · rintro ⟨draft, left, htake, v, hv, h⟩
      cases hempty : left.isEmpty with
      | true =>
        rw [hempty, if_pos rfl] at h
        cases h
        exact ⟨Nat.succ_pos room, draft, left, htake, hv, hempty⟩
      | false =>
        rw [hempty, if_neg Bool.false_ne_true] at h
        cases h
    · rintro ⟨-, draft, left, htake, hv, hempty⟩
      exact ⟨draft, left, htake, a, hv, if_pos hempty⟩

/-! ## Changed texts -/

/-- The other members may be changed as the texts of a record with the fields `more` may be, as long
as they can be kept. -/
def Tolerates (r : Record σ α) (more : List (String × Schema)) : Prop :=
  ∀ ⦃room : Nat⦄ ⦃others others' : List Member⦄ ⦃draft : σ⦄ ⦃a : α⦄,
    (∀ m ∈ others', (r.keepOne (room - 1) m).isSome) →
    Edit (.record more) room (objectText [] others) (objectText [] others') →
    0 < room → (∀ m ∈ others, IsText m.value) → (∀ m ∈ others', IsText m.value) →
    r.Concludes (room - 1) others draft a → r.Concludes (room - 1) others' draft a

theorem memberStep_same {m m' : Member} (h : m.Same m') (r : Record σ α) (room : Nat)
    (s : State σ) : memberStep (r.step room) s m = memberStep (r.step room) s m' := by
  rw [memberStep, memberStep, h.name?_eq]
  cases m'.name? with
  | none => rfl
  | some name => rw [Option.bind_some, Option.bind_some, step, step, h.2]

/-- What is known of the value of a member that is no field. -/
theorem inside_of_other {own more : List (String × Schema)} (hfields : FieldsOf r.slots own)
    {m : Member} (h : r.isField m = false) :
    (Schema.record (own ++ more)).inside m = (Schema.record more).inside m := by
  rw [isField, field?, Option.isSome_eq_false_iff, Option.isNone_iff_eq_none] at h
  rw [Schema.inside, Schema.inside]
  cases hname : m.name? with
  | none => rfl
  | some name =>
    rw [hname, Option.bind_some] at h
    rw [Option.bind_some, Option.bind_some, lookup_of_find?_eq_none hfields h]

/-- A member that is a field may get a value that is changed as is known of the field. -/
theorem fillStep_withValue {own more : List (String × Schema)} (hfields : FieldsOf r.slots own)
    {m : Member} {value : Document}
    (hedit : Edit ((Schema.record (own ++ more)).inside m) room m.value value)
    {draft draft' : σ} (h : r.fillStep room draft m = some draft') :
    r.fillStep room draft (m.withValue value) = some draft' := by
  obtain ⟨slot, hslot, h⟩ := Option.bind_eq_some_iff.mp h
  obtain ⟨name, hname, hfind⟩ := Option.bind_eq_some_iff.mp hslot
  obtain ⟨S, hS, hrespects⟩ := exists_schema more hfields hfind
  refine Option.bind_eq_some_iff.mpr ⟨slot, hslot, ?_⟩
  split at h
  · cases h
  · next hfilled =>
    obtain ⟨set, hset, rfl⟩ := Option.map_eq_some_iff.mp h
    have hinside : (Schema.record (own ++ more)).inside m = S := by
      rw [Schema.inside, hname, Option.bind_some, hS, Option.getD_some]
    have hset' := hrespects (hinside ▸ hedit) hset
    rw [if_neg hfilled]
    exact Option.map_eq_some_iff.mpr ⟨set, hset', rfl⟩

section
variable {own more : List (String × Schema)} {blank : Document} {a : α}

theorem isText_others (r : Record σ α) (hm : ∀ m ∈ ms, IsText m.value) :
    ∀ m ∈ ms.filter (!r.isField ·), IsText m.value :=
  fun m hmem => hm m (List.mem_of_mem_filter hmem)

theorem respects_reorder (hr : r.Lawful) (hapart : r.slots.Pairwise Slot.Apart)
    (hmore : r.Tolerates more) (hb : Blank blank) (hm : ∀ m ∈ ms, IsText m.value)
    (hnodup : (ms.map Member.name?).Nodup) (hperm : ms.Perm ms')
    (ha : whole? (r.decoder.live room) (objectText blank ms) = some a) :
    whole? (r.decoder.live room) (objectText blank ms') = some a := by
  obtain ⟨hroom, draft, hdraft, hrest⟩ := (object_eq_some hr hb hm).mp ha
  have hm' := fun m hmem => hm m (hperm.mem_iff.mpr hmem)
  have hothers := hperm.filter (!r.isField ·)
  have hfilled : (ms'.filter r.isField).foldlM (r.fillStep (room - 1)) r.start = some draft := by
    rw [← foldlM_perm (hperm.filter r.isField) (fun m hm m' hm' hne draft => ?_), hdraft]
    refine fillStep_comm hapart (fun hname => hne ?_) draft
    exact List.inj_on_of_nodup_map hnodup (List.mem_of_mem_filter hm) (List.mem_of_mem_filter hm')
      hname
  exact (object_eq_some hr hb hm').mpr ⟨hroom, draft, hfilled,
    hmore (fun m hmem => hrest.isSome m (hothers.mem_iff.mpr hmem))
      (.reorder blank_nil (r.isText_others hm) (hnodup.sublist (List.filter_sublist.map _)) hothers)
      hroom (r.isText_others hm) (r.isText_others hm') hrest⟩

theorem respects_layout (hr : r.Lawful) {blank' : Document} (hb : Blank blank) (hb' : Blank blank')
    (hm : ∀ m ∈ ms, IsText m.value) (hsame : List.Forall₂ Member.Same ms ms')
    (ha : whole? (r.decoder.live room) (objectText blank ms) = some a) :
    whole? (r.decoder.live room) (objectText blank' ms') = some a := by
  change whole? (r.read room) _ = _ at ha
  show whole? (r.read room) _ = _
  cases room with
  | zero => rw [(makes_object_zero _ _).whole?_eq] at ha; cases ha
  | succ room =>
    rw [(makes_object hr hb hm).whole?_eq, foldlM_congr hsame fun m _ m' hmm s =>
      memberStep_same hmm r room s] at ha
    rwa [(makes_object hr hb' (Member.isText_of_same hsame hm)).whole?_eq]

theorem isField_eq_false (hfields : FieldsOf r.slots own) {m : Member} {name : String}
    (hname : m.name? = some name) (h : name ∉ own.map Prod.fst) : r.isField m = false := by
  rw [isField, field?, hname, Option.bind_some, Option.isSome_eq_false_iff,
    Option.isNone_iff_eq_none]
  by_contra hsome
  obtain ⟨slot, hslot⟩ := Option.ne_none_iff_exists'.mp hsome
  exact h (mem_of_find? hfields hslot)

theorem respects_insert (hr : r.Lawful) (hfields : FieldsOf r.slots own) (hmore : r.Tolerates more)
    (hb : Blank blank) (hm : ∀ m ∈ ms ++ ms', IsText m.value) {m : Member} {name : String}
    (hname : m.name? = some name) (hforeign : name ∉ (own ++ more).map Prod.fst) (ht : IsText m.value)
    (hv : (whole? (readValue (room - 1)) m.value).isSome)
    (ha : whole? (r.decoder.live room) (objectText blank (ms ++ ms')) = some a) :
    whole? (r.decoder.live room) (objectText blank (ms ++ m :: ms')) = some a := by
  obtain ⟨hroom, draft, hdraft, hrest⟩ := (object_eq_some hr hb hm).mp ha
  rw [List.map_append, List.mem_append, not_or] at hforeign
  have hfield := isField_eq_false hfields hname hforeign.1
  have hkeep : (r.keepOne (room - 1) m).isSome := isSome_keepOne.mpr ⟨hname ▸ rfl, fun _ => hv⟩
  have hsome := hrest.isSome
  have htexts := r.isText_others hm
  rw [List.filter_append] at hrest hsome htexts
  refine (object_eq_some hr hb (forall_mem_insert hm ht)).mpr ⟨hroom, draft, ?_, ?_⟩
  · rwa [List.filter_append, List.filter_cons_of_neg (Bool.eq_false_iff.mp hfield),
      ← List.filter_append]
  · rw [List.filter_append, List.filter_cons_of_pos (by rw [hfield]; rfl)]
    exact hmore (forall_mem_insert hsome hkeep)
      (.insert blank_nil htexts hname hforeign.2 ht hv) hroom htexts (forall_mem_insert htexts ht) hrest

theorem respects_member (hr : r.Lawful) (hfields : FieldsOf r.slots own) (hmore : r.Tolerates more)
    (hb : Blank blank) {m : Member} (hm : ∀ m' ∈ ms ++ m :: ms', IsText m'.value) {value : Document}
    (hedit : Edit ((Schema.record (own ++ more)).inside m) (room - 1) m.value value)
    (ha : whole? (r.decoder.live room) (objectText blank (ms ++ m :: ms')) = some a) :
    whole? (r.decoder.live room) (objectText blank (ms ++ m.withValue value :: ms')) = some a := by
  obtain ⟨hroom, draft, hdraft, hrest⟩ := (object_eq_some hr hb hm).mp ha
  have ht : IsText (m.withValue value).value := hedit.isText_right
  refine (object_eq_some hr hb (forall_mem_replace hm ht)).mpr ⟨hroom, draft, ?_⟩
  have hsame : r.isField (m.withValue value) = r.isField m := rfl
  have htexts := r.isText_others hm
  have hsome := hrest.isSome
  cases hfield : r.isField m with
  | true =>
    simp only [List.filter_append, List.filter_cons, hfield, hsame, if_true, Bool.not_true,
      Bool.false_eq_true, if_false] at hdraft hrest ⊢
    exact ⟨foldlM_replace (fun _ _ h => fillStep_withValue hfields hedit h) hdraft, hrest⟩
  | false =>
    simp only [List.filter_append, List.filter_cons, hfield, hsame, if_true, Bool.not_false,
      Bool.false_eq_true, if_false] at hdraft hrest htexts hsome ⊢
    obtain ⟨hname, hreadable⟩ := isSome_keepOne.mp
      (hsome m (List.mem_append_right _ List.mem_cons_self))
    have hkeep : (r.keepOne (room - 1) (m.withValue value)).isSome :=
      isSome_keepOne.mpr ⟨hname, fun ho => hedit.readable (hreadable ho)⟩
    exact ⟨hdraft, hmore (forall_mem_replace hsome hkeep)
      (.member blank_nil htexts (inside_of_other hfields hfield ▸ hedit)) hroom htexts
      (forall_mem_replace htexts ht) hrest⟩

theorem respects_item (hr : r.Lawful) (hfields : FieldsOf r.slots own) (hb : Blank blank)
    {is is' : List Item} {i : Item} (hi : ∀ i' ∈ is ++ i :: is', IsText i'.value) {value : Document}
    (hedit : Edit ((Schema.record (own ++ more)).item is.length) (room - 1) i.value value)
    (ha : whole? (r.decoder.live room) (arrayText blank (is ++ i :: is')) = some a) :
    whole? (r.decoder.live room) (arrayText blank (is ++ i.withValue value :: is')) = some a := by
  cases ho : r.isOpen with
  | true =>
    have hnone : whole? (r.decoder.live room) (arrayText blank (is ++ i :: is')) = none :=
      (makes_array_open ho _ _).whole?_eq
    rw [hnone] at ha
    cases ha
  | false =>
    have ht : IsText (i.withValue value).value := hedit.isText_right
    obtain ⟨hroom, draft, left, htake, hfinish, hempty⟩ := (array_eq_some hr ho hb hi).mp ha
    obtain ⟨left', htake', hempty'⟩ := takeSlots_replace hfields hedit htake
    exact (array_eq_some hr ho hb (forall_mem_replace hi ht)).mpr
      ⟨hroom, draft, left', htake', hfinish, hempty'.trans hempty⟩

/-- A record respects all changes of its texts if it tolerates those of the members that are no field
of it. -/
theorem respects (hr : r.Lawful) (hapart : r.slots.Pairwise Slot.Apart)
    (hfields : FieldsOf r.slots own) (hmore : r.Tolerates more) :
    r.decoder.Respects (.record (own ++ more)) := by
  intro room t t' a hedit ha
  cases hedit with
  | reorder hb hm hnodup hperm => exact respects_reorder hr hapart hmore hb hm hnodup hperm ha
  | layout hb hb' hm hsame => exact respects_layout hr hb hb' hm hsame ha
  | insert hb hm hname hforeign ht hv =>
    exact respects_insert hr hfields hmore hb hm hname hforeign ht hv ha
  | member hb hm hedit => exact respects_member hr hfields hmore hb hm hedit ha
  | item hb hi hedit => exact respects_item hr hfields hb hi hedit ha

end

/-! ## Plain records and open ones -/

theorem keep_plain (ho : r.isOpen = false) {kept : List (String × Json)}
    (h : r.keep room ms = some kept) : kept = [] := by
  obtain ⟨ls, hls, rfl⟩ := Option.map_eq_some_iff.mp h
  refine List.flatten_eq_nil_iff.mpr fun l hl => ?_
  obtain ⟨m, -, hm⟩ := exists_of_mem_mapM hls hl
  rw [keepOne, ho] at hm
  obtain ⟨name, -, rfl⟩ := Option.map_eq_some_iff.mp hm
  rfl

theorem keep_open (ho : r.isOpen = true) (room : Nat) (ms : List Member) :
    r.keep room ms = ms.mapM (Member.pair? (readValue room)) := by
  induction ms with
  | nil => rfl
  | cons m ms ih =>
    rw [keep_cons, ih, mapM_option_cons, keepOne, if_pos ho]
    cases m.pair? (readValue room) <;> rfl

/-- A plain record leaves out what is no field of it. -/
theorem tolerates_plain (ho : r.isOpen = false) : r.Tolerates [] := by
  intro room others others' draft a hsome _ _ _ _ hconcludes
  obtain ⟨kept, hkept, hfinish⟩ := hconcludes
  obtain rfl := keep_plain ho hkept
  obtain ⟨kept', hkept'⟩ := exists_keep hsome
  have hnil := keep_plain ho hkept'
  exact ⟨kept', hkept', hnil ▸ hfinish⟩

theorem respects_plain {own : List (String × Schema)} (hr : r.Lawful) (ho : r.isOpen = false)
    (hapart : r.slots.Pairwise Slot.Apart) (hfields : FieldsOf r.slots own) :
    r.decoder.Respects (.record own) := by
  have h := respects hr hapart hfields (tolerates_plain ho)
  rwa [List.append_nil] at h

/-- The open record keeps its other members for another record, which shares the object with it. -/
structure Flattens (r : Record σ α) (inner : Record τ β) : Prop where
  isOpen : r.isOpen = true
  finish (draft : σ) : ∃ g : β → Option α, ∀ others,
    (r.finish draft others).toOption = (inner.ofMembers others).toOption.bind g

/-- Of the members that are kept for it, the other record makes what it makes of an object of them. -/
theorem Flattens.whole?_object {inner : Record τ β} (h : r.Flattens inner) (hinner : inner.Lawful)
    (hroom : 0 < room) (hm : ∀ m ∈ ms, IsText m.value) {kept : List (String × Json)}
    (hkept : r.keep (room - 1) ms = some kept) :
    whole? (inner.decoder.live room) (objectText [] ms) = (inner.ofMembers kept).toOption := by
  obtain ⟨room, rfl⟩ := Nat.exists_eq_add_one_of_ne_zero (Nat.ne_zero_of_lt hroom)
  rw [keep_open h.isOpen, Nat.add_sub_cancel] at hkept
  refine (makes_object hinner blank_nil hm).whole?_eq.trans ?_
  rw [foldlM_step hinner hm hkept, toOption_ofMembers]

theorem Flattens.tolerates {inner : Record τ β} {more : List (String × Schema)}
    (h : r.Flattens inner) (hinner : inner.Lawful)
    (hrespects : inner.decoder.Respects (.record more)) : r.Tolerates more := by
  intro room others others' draft a hsome hedit hroom hm hm' hconcludes
  obtain ⟨kept, hkept, hfinish⟩ := hconcludes
  obtain ⟨kept', hkept'⟩ := exists_keep hsome
  obtain ⟨g, hg⟩ := h.finish draft
  have ha := Except.toOption_eq_some.mpr hfinish
  rw [hg, Option.bind_eq_some_iff] at ha
  obtain ⟨b, hb, hgb⟩ := ha
  have hb' := hrespects hedit ((h.whole?_object hinner hroom hm hkept).trans hb)
  refine ⟨kept', hkept', Except.toOption_eq_some.mp ?_⟩
  rw [hg, ← h.whole?_object hinner hroom hm' hkept', hb', Option.bind_some, hgb]

end Record

end MicroFrontends.Json
