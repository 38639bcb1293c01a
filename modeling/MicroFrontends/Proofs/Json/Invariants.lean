import MicroFrontends.Json.Record
import MicroFrontends.Proofs.Dict
import MicroFrontends.Proofs.Folds
import MicroFrontends.Proofs.Json.Records
import MicroFrontends.Proofs.Json.Written

/-!
# What can be said of everything that is decoded

A value that is read nests only so deep and has whole numbers of 64 bits (`ensures_readValue`). What a
decoder makes has some property if it has it whether the decoder reads a document or takes a value
that was read before (`Decoder.Yields`). Each decoder that is made of others has one lemma that says
which property follows from theirs.
-/

namespace MicroFrontends.Json

variable {α β σ : Type}

/-! ## Readers -/

/-- All that the reader makes has the property. -/
def Ensures (f : Reader α) (P : α → Prop) : Prop := ∀ d v rest, f d = .ok (v, rest) → P v

theorem Ensures.map {f : Reader α} {P : α → Prop} {Q : β → Prop} (hf : Ensures f P) (g : α → β)
    (hg : ∀ v, P v → Q (g v)) : Ensures (fun d => do
      let (v, d) ← f d
      return (g v, d)) Q := by
  intro d w rest h
  obtain ⟨⟨v, r⟩, hv, h⟩ := Except.bind_eq_ok.mp h
  cases h
  exact hg v (hf _ _ _ hv)

section
variable {P : σ → Prop}

theorem ensures_readItems {item : σ → Reader σ} (h : ∀ s, P s → Ensures (item s) P) :
    ∀ fuel first {s : σ}, P s → Ensures (readItems item fuel first s) P
  | 0, _, _, _, _, _, _, hread => by cases hread
  | fuel + 1, first, s, hs, d, s', rest, hread => by
    rw [readItems] at hread
    obtain ⟨⟨more, d₁⟩, -, hread⟩ := Except.bind_eq_ok.mp hread
    cases more with
    | false => cases hread; exact hs
    | true =>
      obtain ⟨⟨s₁, d₂⟩, hitem, hread⟩ := Except.bind_eq_ok.mp hread
      exact ensures_readItems h fuel false (h s hs _ _ _ hitem) _ _ _ hread

theorem ensures_readMembers {member : σ → String → Reader σ}
    (h : ∀ s name, P s → Ensures (member s name) P) :
    ∀ fuel first {s : σ}, P s → Ensures (readMembers member fuel first s) P
  | 0, _, _, _, _, _, _, hread => by cases hread
  | fuel + 1, first, s, hs, d, s', rest, hread => by
    rw [readMembers] at hread
    obtain ⟨⟨more, d₁⟩, -, hread⟩ := Except.bind_eq_ok.mp hread
    cases more with
    | false => cases hread; exact hs
    | true =>
      obtain ⟨⟨name, d₂⟩, -, hread⟩ := Except.bind_eq_ok.mp hread
      obtain ⟨⟨s₁, d₃⟩, hmember, hread⟩ := Except.bind_eq_ok.mp hread
      exact ensures_readMembers h fuel false (h s name hs _ _ _ hmember) _ _ _ hread

end

theorem Ensures.insideArray {f : Reader α} {P : α → Prop} (h : Ensures f P) :
    Ensures (insideArray f) P := by
  intro d v rest hread
  obtain ⟨left, hbody, -⟩ := insideArray_eq_ok hread
  exact h _ _ _ hbody

theorem Ensures.insideObject {f : Reader α} {P : α → Prop} (h : Ensures f P) :
    Ensures (insideObject f) P := by
  intro d v rest hread
  obtain ⟨left, hbody, -⟩ := insideObject_eq_ok hread
  exact h _ _ _ hbody

theorem ensures_readArray {P : σ → Prop} {item : σ → Reader σ}
    (h : ∀ s, P s → Ensures (item s) P) {s : σ} (hs : P s) : Ensures (readArray item s) P :=
  Ensures.insideArray fun _ => ensures_readItems h _ _ hs _

theorem ensures_readObject {P : σ → Prop} {member : σ → String → Reader σ}
    (h : ∀ s name, P s → Ensures (member s name) P) {s : σ} (hs : P s) :
    Ensures (readObject member s) P :=
  Ensures.insideObject fun _ => ensures_readMembers h _ _ hs _

/-- A member's value is read after a colon. -/
theorem Ensures.member {f : Reader α} {P : α → Prop} {Q : β → Prop} (hf : Ensures f P) (g : α → β)
    (hg : ∀ v, P v → Q (g v)) : Ensures (fun d => do
      let (v, d) ← f (← readColon d)
      return (g v, d)) Q := by
  intro d w rest h
  obtain ⟨d', -, h⟩ := Except.bind_eq_ok.mp h
  exact hf.map g hg _ _ _ h

/-! ## Values -/

theorem fits_of_readScalar {d rest : Document} {v : Json} (h : readScalar d = .ok (v, rest))
    (room : Nat) : Fits room v := by
  have hnumber {negative : Bool} {d : Document} (h : readNumber negative d = .ok (v, rest)) :
      Fits room v := by
    obtain ⟨-, -, -, ⟨x, rfl⟩ | ⟨n, rfl, hn⟩⟩ := form_of_readNumber h
    · exact .float x
    · exact .int hn
  unfold readScalar at h
  split at h
  · obtain ⟨r, -, h⟩ := Except.bind_eq_ok.mp h
    cases h
    exact .null
  · obtain ⟨r, -, h⟩ := Except.bind_eq_ok.mp h
    cases h
    exact .bool true
  · obtain ⟨r, -, h⟩ := Except.bind_eq_ok.mp h
    cases h
    exact .bool false
  · exact hnumber h
  · obtain ⟨p, -, h⟩ := Except.bind_eq_ok.mp h
    cases h
    exact .string _
  · cases h
  · split at h
    · exact hnumber h
    · cases h

theorem ensures_readValue (room : Nat) : Ensures (readValue room) (Fits room) := by
  induction room with
  | zero =>
    intro d v rest h
    rw [readValue] at h
    split at h
    · cases h
    · cases h
    · exact fits_of_readScalar h 0
  | succ room ih =>
    intro d v rest h
    have hread := h
    rw [readValue] at hread
    split at hread
    · next heq =>
      have hitem (items : List Json) (hitems : ∀ v ∈ items, Fits room v) :=
        ih.map (Q := fun items => ∀ v ∈ items, Fits room v) (· :: items) fun v hv =>
          List.forall_mem_cons.mpr ⟨hv, hitems⟩
      rw [readValue_openArray heq] at h
      obtain ⟨⟨items, r⟩, hitems, hv⟩ := Except.map_eq_ok.mp h
      cases hv
      have hall := ensures_readArray hitem (List.forall_mem_nil _) _ _ _ hitems
      exact .array fun v hv => hall v (List.mem_reverse.mp hv)
    · next heq =>
      have hmember (members : List (String × Json)) (name : String)
          (hmembers : ∀ m ∈ members, Fits room m.2) :=
        ih.member (Q := fun members => ∀ m ∈ members, Fits room m.2) (fun v => (name, v) :: members)
          fun v hv => List.forall_mem_cons.mpr ⟨hv, hmembers⟩
      rw [readValue_openObject heq] at h
      obtain ⟨⟨members, r⟩, hmembers, hv⟩ := Except.map_eq_ok.mp h
      cases hv
      have hall := ensures_readObject hmember (List.forall_mem_nil _) _ _ _ hmembers
      exact .object fun m hm => hall m (List.mem_reverse.mp hm)
    · exact fits_of_readScalar hread _

/-! ## Values in order -/

theorem canonicalItems_eq_map (vs : List Json) : canonicalItems vs = vs.map canonical := by
  induction vs with
  | nil => rfl
  | cons v vs ih => rw [canonicalItems, ih, List.map_cons]

theorem canonicalMembers_eq_foldl (ms : List (String × Json)) (d : Dict Json) :
    canonicalMembers ms d = ms.foldl (fun d m => d.insert m.1 m.2.canonical) d := by
  induction ms generalizing d with
  | nil => rfl
  | cons m ms ih => rw [canonicalMembers, ih, List.foldl_cons]

/-- The dictionary of members is in order, and its values are those of the members in order. -/
theorem canonicalMembers_induction {P : Json → Prop} (ms : List (String × Json))
    (h : ∀ m ∈ ms, P m.2.canonical) {d : Dict Json} (hd : d.Sorted) (hP : ∀ e ∈ d, P e.2) :
    (canonicalMembers ms d).Sorted ∧ ∀ e ∈ canonicalMembers ms d, P e.2 := by
  induction ms generalizing d with
  | nil => exact ⟨hd, hP⟩
  | cons m ms ih =>
    refine ih (fun m hm => h m (List.mem_cons_of_mem _ hm)) (hd.insert _ _) fun e he => ?_
    rcases Dict.mem_insert he with rfl | he
    · exact h m List.mem_cons_self
    · exact hP e he

theorem canonicalMembers_of_sorted {d : Dict Json} (h : d.Sorted) (hv : ∀ e ∈ d, e.2.canonical = e.2) :
    canonicalMembers d [] = d := by
  rw [canonicalMembers_eq_foldl]
  refine Eq.trans (List.foldl_ext _ _ _ fun d' e he => ?_) (Dict.Sorted.foldl_insert (d := []) h)
  rw [hv e he]

theorem Fits.canonical {room : Nat} {v : Json} (h : Fits room v) : Fits room v.canonical := by
  induction h with
  | array h ih =>
    rw [Json.canonical, canonicalItems_eq_map]
    refine .array fun v hv => ?_
    obtain ⟨w, hw, rfl⟩ := List.mem_map.mp hv
    exact ih w hw
  | @object room ms h ih =>
    exact .object (canonicalMembers_induction ms ih Dict.sorted_nil (List.forall_mem_nil _)).2
  | int hn => exact .int hn
  | null => exact .null
  | bool b => exact .bool b
  | float x => exact .float x
  | string s => exact .string s

/-- What is in order is left as it is. -/
theorem Fits.canonical_canonical {room : Nat} {v : Json} (h : Fits room v) :
    v.canonical.canonical = v.canonical := by
  induction h with
  | array h ih =>
    simp only [Json.canonical, canonicalItems_eq_map, List.map_map]
    exact congrArg Json.array (List.map_congr_left ih)
  | @object room ms h ih =>
    obtain ⟨hsorted, hvalues⟩ := canonicalMembers_induction ms
      (P := fun v => v.canonical = v) ih Dict.sorted_nil (List.forall_mem_nil _)
    rw [Json.canonical, Json.canonical, canonicalMembers_of_sorted hsorted hvalues]
  | _ => rfl

/-! ## Decoders -/

namespace Decoder

variable {P : Nat → α → Prop} {inner : Decoder α}

/-- All that the decoder makes has the property, given the room in which it is read, or in which the
value fits that is decoded. -/
structure Yields (decoder : Decoder α) (P : Nat → α → Prop) : Prop where
  live (room : Nat) : Ensures (decoder.live room) (P room)
  kept {room : Nat} {v : Json} {a : α} (hv : Fits room v) (h : decoder.kept v = .ok a) : P room a

theorem yields_any (decoder : Decoder α) : decoder.Yields fun _ _ => True where
  live _ _ _ _ _ := trivial
  kept _ _ := trivial

theorem yields_json : json.Yields fun room v => v.canonical = v ∧ Fits room v where
  live room := (ensures_readValue room).map canonical fun _ hv => ⟨hv.canonical_canonical, hv.canonical⟩
  kept hv h := by
    cases h
    exact ⟨hv.canonical_canonical, hv.canonical⟩

theorem Yields.option (h : inner.Yields P) :
    (option inner).Yields fun room o => ∀ a ∈ o, P room a where
  live room d o rest hread := by
    simp only [Decoder.option] at hread
    split at hread
    · obtain ⟨r, -, hread⟩ := Except.bind_eq_ok.mp hread
      cases hread
      intro a ha
      cases ha
    · refine (h.live room).map (Q := fun o => ∀ a ∈ o, P room a) some (fun a ha => ?_) _ _ _ hread
      intro a' ha'
      cases ha'
      exact ha
  kept {room v o} hv ho := by
    simp only [Decoder.option] at ho
    split at ho
    · cases ho
      intro a ha
      cases ha
    · obtain ⟨a, ha, rfl⟩ := Except.map_eq_ok.mp ho
      intro a' ha'
      cases ha'
      exact h.kept hv ha

theorem Yields.list (h : inner.Yields P) :
    (list inner).Yields fun room l => ∀ a ∈ l, P (room - 1) a where
  live room d l rest hread := by
    cases room with
    | zero =>
      simp only [Decoder.list] at hread
      split at hread
      · cases hread
      · exact absurd hread blameType_ne_ok
    | succ room =>
      have hopen := hread
      simp only [Decoder.list] at hopen
      split at hopen
      · next heq =>
        have hitem (items : List α) (hitems : ∀ a ∈ items, P room a) :=
          (h.live room).map (Q := fun items => ∀ a ∈ items, P room a) (· :: items) fun a ha =>
            List.forall_mem_cons.mpr ⟨ha, hitems⟩
        rw [list_openArray heq] at hread
        obtain ⟨⟨items, r⟩, hitems, hl⟩ := Except.map_eq_ok.mp hread
        cases hl
        have hall := ensures_readArray hitem (List.forall_mem_nil _) _ _ _ hitems
        exact fun a ha => hall a (List.mem_reverse.mp ha)
      · exact absurd hopen blameType_ne_ok
  kept {room v l} hv hl := by
    cases hv with
    | @array room vs hvs =>
      have hall := (toOption_mapM inner.kept vs).symm.trans (Except.toOption_eq_some.mpr hl)
      intro a ha
      obtain ⟨v, hv, hva⟩ := exists_of_mem_mapM hall ha
      exact h.kept (hvs v hv) (Except.toOption_eq_some.mp hva)
    | _ => cases hl

theorem yields_dict (inner : Decoder α) : (dict inner).Yields fun _ d => Dict.Sorted d where
  live room d entries rest hread := by
    simp only [Decoder.dict] at hread
    split at hread
    · cases room with
      | zero => cases hread
      | succ room =>
        refine ensures_readObject (fun s name hs => ?_) Dict.sorted_nil _ _ _ hread
        exact Ensures.member (fun _ _ _ _ => trivial) (fun v => Dict.insert s name v)
          fun v _ => hs.insert name v
    · exact absurd hread blameType_ne_ok
  kept {room v entries} hv h := by
    cases hv with
    | object hms =>
      refine foldlM_invariant (fun s hs m _ s' hstep => ?_) Dict.sorted_nil h
      obtain ⟨a, -, hstep⟩ := Except.bind_eq_ok.mp hstep
      cases hstep
      exact hs.insert _ _
    | _ => cases h

theorem Yields.refine {Q : Nat → β → Prop} (h : inner.Yields P) {check : α → Except Problem β}
    (hcheck : ∀ room a b, P room a → check a = .ok b → Q room b) :
    (inner.refine check).Yields Q where
  live room d b rest hread := by
    obtain ⟨⟨a, r⟩, ha, hb⟩ := Except.bind_eq_ok.mp hread
    exact hcheck room a b (h.live room _ _ _ ha) (conclude_eq_ok hb).1
  kept hv hb := by
    obtain ⟨a, ha, hb⟩ := Except.bind_eq_ok.mp hb
    exact hcheck _ a _ (h.kept hv ha) hb

end Decoder

/-! ## Records -/

/-- Each field keeps a property of the draft. -/
theorem Slot.yields {name : String} {get? : σ → Option α} {put : σ → α → σ} {decoder : Decoder α}
    {isOptional : Bool} {P : Nat → α → Prop} {D : Nat → σ → Prop} (h : decoder.Yields P)
    (hput : ∀ room draft a, D room draft → P room a → D room (put draft a)) :
    (Slot.of name get? put decoder isOptional).fill.Yields fun room set =>
      ∀ draft, D room draft → D room (set draft) :=
  h.refine fun room a set ha hset => by
    cases hset
    exact fun draft hdraft => hput room draft a hdraft ha

namespace Record

/-- A property of the draft that the first one has and all fields keep. -/
structure Keeps (r : Record σ α) (D : Nat → σ → Prop) : Prop where
  start (room : Nat) : D room r.start
  slots : ∀ slot ∈ r.slots, slot.fill.Yields fun room set => ∀ draft, D room draft → D room (set draft)

/-- What is made of a draft with the first property, and of members that fit, has the second one. -/
def Finishes (r : Record σ α) (D : Nat → σ → Prop) (P : Nat → α → Prop) : Prop :=
  ∀ room draft others a, D room draft → (∀ m ∈ others, Fits room m.2) →
    r.finish draft others = .ok a → P room a

theorem keeps_any (r : Record σ α) : r.Keeps fun _ _ => True where
  start _ := trivial
  slots _ _ := ⟨fun _ _ _ _ _ _ _ => trivial, fun _ _ _ _ => trivial⟩

variable {r : Record σ α} {D : Nat → σ → Prop} {P : Nat → α → Prop} {room : Nat}

/-- The draft has the property, and the members that were kept fit. -/
def StateInv (D : Nat → σ → Prop) (room : Nat) (s : State σ) : Prop :=
  D room s.1 ∧ ∀ m ∈ s.2, Fits room m.2

theorem ensures_readMember (h : r.Keeps D) (s : State σ) (name : String)
    (hs : StateInv D room s) : Ensures (r.readMember room s name) (StateInv D room) := by
  intro d s' rest hread
  unfold readMember at hread
  split at hread
  · next slot hslot =>
    split at hread
    · cases hread
    · have hset := (h.slots slot (mem_slots hslot)).live room
      exact hset.member (Q := StateInv D room) (fun set => (set s.1, s.2))
        (fun set hset => ⟨hset s.1 hs.1, hs.2⟩) _ _ _ hread
  · obtain ⟨d₁, -, hread⟩ := Except.bind_eq_ok.mp hread
    split at hread
    · obtain ⟨⟨v, d₂⟩, hv, hread⟩ := Except.bind_eq_ok.mp hread
      cases hread
      refine ⟨hs.1, fun m hm => ?_⟩
      rcases List.mem_append.mp hm with hm | hm
      · exact hs.2 m hm
      · obtain rfl := List.mem_singleton.mp hm
        exact ensures_readValue room _ _ _ hv
    · obtain ⟨d₂, -, hread⟩ := Except.bind_eq_ok.mp hread
      cases hread
      exact hs

theorem ensures_readSlots (r : Record σ α) : ∀ {slots : List (Slot σ)},
    (∀ slot ∈ slots, slot.fill.Yields fun room set => ∀ draft, D room draft → D room (set draft)) →
    ∀ index {draft : σ}, D room draft → Ensures (r.readSlots room slots index draft) (D room)
  | [], _, _, draft, hd, _, _, _, hread => by cases hread; exact hd
  | slot :: slots, h, index, draft, hd, d, draft', rest, hread => by
    rw [readSlots] at hread
    obtain ⟨⟨more, d₁⟩, -, hread⟩ := Except.bind_eq_ok.mp hread
    have hslots := ensures_readSlots r fun slot hs => h slot (List.mem_cons_of_mem _ hs)
    cases more with
    | true =>
      obtain ⟨⟨set, d₂⟩, hset, hread⟩ := Except.bind_eq_ok.mp hread
      exact hslots _ ((h slot List.mem_cons_self).live room _ _ _ hset draft hd) _ _ _ hread
    | false =>
      dsimp only at hread
      rw [if_neg Bool.false_ne_true] at hread
      split at hread
      · exact hslots _ hd _ _ _ hread
      · cases hread

theorem ofMembers_yields (h : r.Keeps D) (hfinish : r.Finishes D P) {ms : List (String × Json)}
    (hms : ∀ m ∈ ms, Fits room m.2) {a : α} (ha : r.ofMembers ms = .ok a) : P room a := by
  obtain ⟨s, hs, ha⟩ := Except.bind_eq_ok.mp ha
  have hinv : StateInv D room s := by
    refine foldlM_invariant (fun s hs m hm s' hstep => ?_) ⟨h.start room, List.forall_mem_nil _⟩ hs
    unfold addMember at hstep
    split at hstep
    · next slot hslot =>
      split at hstep
      · cases hstep
      · obtain ⟨set, hset, hstep⟩ := Except.bind_eq_ok.mp hstep
        cases hstep
        exact ⟨(h.slots slot (mem_slots hslot)).kept (hms m hm) hset s.1 hs.1, hs.2⟩
    · cases hstep
      refine ⟨hs.1, fun m' hm' => ?_⟩
      split at hm'
      · rcases List.mem_append.mp hm' with hm' | hm'
        · exact hs.2 m' hm'
        · obtain rfl := List.mem_singleton.mp hm'
          exact hms m' hm
      · exact hs.2 m' hm'
  exact hfinish room s.1 s.2 a hinv.1 hinv.2 ha

theorem fillSlots_yields (r : Record σ α) : ∀ {slots : List (Slot σ)},
    (∀ slot ∈ slots, slot.fill.Yields fun room set => ∀ draft, D room draft → D room (set draft)) →
    ∀ {index} {draft draft' : σ} {vs : List Json}, D room draft → (∀ v ∈ vs, Fits room v) →
      r.fillSlots slots index draft vs = .ok draft' → D room draft'
  | [], _, _, _, _, _, hd, _, hfill => by cases hfill; exact hd
  | slot :: slots, h, index, draft, draft', [], hd, hvs, hfill => by
    rw [fillSlots] at hfill
    split at hfill
    · exact fillSlots_yields r (fun slot hs => h slot (List.mem_cons_of_mem _ hs)) hd hvs hfill
    · cases hfill
  | slot :: slots, h, index, draft, draft', v :: vs, hd, hvs, hfill => by
    rw [fillSlots] at hfill
    obtain ⟨set, hset, hfill⟩ := Except.bind_eq_ok.mp hfill
    exact fillSlots_yields r (fun slot hs => h slot (List.mem_cons_of_mem _ hs))
      ((h slot List.mem_cons_self).kept (hvs v List.mem_cons_self) hset draft hd)
      (fun v hv => hvs v (List.mem_cons_of_mem _ hv)) hfill

theorem decoder_yields (h : r.Keeps D) (hfinish : r.Finishes D P) :
    r.decoder.Yields fun room a => P (room - 1) a where
  live room d a rest hread := by
    change r.read room d = _ at hread
    have hopen := hread
    unfold read at hopen
    split at hopen
    · next heq =>
      cases room with
      | zero => cases hopen
      | succ room =>
        rw [read_openObject heq] at hread
        refine Ensures.insideObject (fun d a rest hread => ?_) _ _ _ hread
        obtain ⟨⟨s, d₁⟩, hs, ha⟩ := Except.bind_eq_ok.mp hread
        have hinv := ensures_readMembers (fun s name hs => ensures_readMember h s name hs) _ _
          ⟨h.start room, List.forall_mem_nil _⟩ _ _ _ hs
        exact hfinish room s.1 s.2 a hinv.1 hinv.2 (conclude_eq_ok ha).1
    · next heq =>
      split at hopen
      · exact absurd hopen blameType_ne_ok
      · next ho =>
        cases room with
        | zero => cases hopen
        | succ room =>
          rw [read_openArray (Bool.not_eq_true _ ▸ ho) heq] at hread
          refine Ensures.insideArray (fun d a rest hread => ?_) _ _ _ hread
          obtain ⟨⟨draft, d₁⟩, hdraft, ha⟩ := Except.bind_eq_ok.mp hread
          have hinv := ensures_readSlots r h.slots 0 (h.start room) _ _ _ hdraft
          exact hfinish room draft [] a hinv (List.forall_mem_nil _) (conclude_eq_ok ha).1
    · exact absurd hopen blameType_ne_ok
  kept {room v a} hv ha := by
    cases hv with
    | object hms => exact ofMembers_yields h hfinish hms ha
    | array hvs =>
      simp only [decoder] at ha
      split at ha
      · cases ha
      · obtain ⟨draft, hdraft, ha⟩ := Except.bind_eq_ok.mp ha
        obtain ⟨w, hw, ha⟩ := Except.bind_eq_ok.mp ha
        split at ha
        · cases ha
          exact hfinish _ draft [] a (fillSlots_yields r h.slots (h.start _) hvs hdraft)
            (List.forall_mem_nil _) hw
        · cases ha
    | _ => cases ha

end Record

end MicroFrontends.Json
