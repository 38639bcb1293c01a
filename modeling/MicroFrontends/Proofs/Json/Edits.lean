import Mathlib.Data.List.Nodup
import MicroFrontends.Proofs.Json.Invariants

/-!
# Texts with their members in another order, or with more members

A `Schema` says where in a text the objects of records stand, with the fields that are known in
them. `Edit` is one change of a text, wherever in it: the members of an object whose names are
different come in another order or with other blanks between them, or a record gets a member that is
no field of it.

A decoder respects a schema if of a changed text it makes what it makes of the text before the
change (`Decoder.Respects`). This module shows it of all decoders that are not records. Changes of
compact texts are given by the values for which they are written (`Edit.compact_perm` and so on).
-/

namespace MicroFrontends.Json

/-! ## Changes of a text -/

/-- What is known of the parts of a text. -/
inductive Schema where
  /-- A value of which nothing is known. -/
  | any
  | list (item : Schema)
  /-- A record with these fields. Its text may have more members. -/
  | record (fields : List (String × Schema))

namespace Schema

/-- What is known of the value of a member. -/
def inside (S : Schema) (m : Member) : Schema :=
  match S with
  | .record fields => (m.name?.bind fun name => fields.lookup name).getD .any
  | _ => .any

/-- What is known of the item at an index. Plain records may be written as arrays. -/
def item (S : Schema) (index : Nat) : Schema :=
  match S with
  | .list item => item
  | .record fields => (fields[index]?.map Prod.snd).getD .any
  | .any => .any

end Schema

/-- The members differ only in the blanks around their names and values. -/
def Member.Same (m m' : Member) : Prop := m.name = m'.name ∧ m.value = m'.value

/-- The member with another value. -/
def Member.withValue (m : Member) (value : Document) : Member := { m with value := value }

/-- The item with another value. -/
def Item.withValue (i : Item) (value : Document) : Item := { i with value := value }

/-- The text of a value is changed in one place, where `room` levels of nesting may still be
opened. -/
inductive Edit : Schema → (room : Nat) → Document → Document → Prop
  /-- The members of an object whose names are different come in another order. -/
  | reorder {S : Schema} {room : Nat} {blank : Document} {ms ms' : List Member} : Blank blank →
    (∀ m ∈ ms, IsText m.value) → (ms.map Member.name?).Nodup → ms.Perm ms' →
    Edit S room (objectText blank ms) (objectText blank ms')
  /-- The blanks between the members of an object are others. -/
  | layout {S : Schema} {room : Nat} {blank blank' : Document} {ms ms' : List Member} :
    Blank blank → Blank blank' → (∀ m ∈ ms, IsText m.value) → List.Forall₂ Member.Same ms ms' →
    Edit S room (objectText blank ms) (objectText blank' ms')
  /-- A record has one more member, which is no field of it and can be read. -/
  | insert {fields : List (String × Schema)} {room : Nat} {blank : Document} {ms ms' : List Member}
    {m : Member} {name : String} : Blank blank → (∀ m' ∈ ms ++ ms', IsText m'.value) →
    m.name? = some name → name ∉ fields.map Prod.fst → IsText m.value →
    (whole? (readValue (room - 1)) m.value).isSome →
    Edit (.record fields) room (objectText blank (ms ++ ms')) (objectText blank (ms ++ m :: ms'))
  /-- The value of a member is changed. -/
  | member {S : Schema} {room : Nat} {blank value : Document} {ms ms' : List Member} {m : Member} :
    Blank blank → (∀ m' ∈ ms ++ m :: ms', IsText m'.value) →
    Edit (S.inside m) (room - 1) m.value value →
    Edit S room (objectText blank (ms ++ m :: ms'))
      (objectText blank (ms ++ m.withValue value :: ms'))
  /-- An item of an array is changed. -/
  | item {S : Schema} {room : Nat} {blank value : Document} {is is' : List Item} {i : Item} :
    Blank blank → (∀ i' ∈ is ++ i :: is', IsText i'.value) →
    Edit (S.item is.length) (room - 1) i.value value →
    Edit S room (arrayText blank (is ++ i :: is'))
      (arrayText blank (is ++ i.withValue value :: is'))

section
variable {α : Type} {P : α → Prop} {l l' : List α} {a b : α}

theorem forall_mem_replace (h : ∀ c ∈ l ++ a :: l', P c) (hb : P b) : ∀ c ∈ l ++ b :: l', P c := by
  simp only [List.forall_mem_append, List.forall_mem_cons] at h ⊢
  exact ⟨h.1, hb, h.2.2⟩

theorem forall_mem_insert (h : ∀ c ∈ l ++ l', P c) (hb : P b) : ∀ c ∈ l ++ b :: l', P c := by
  simp only [List.forall_mem_append, List.forall_mem_cons] at h ⊢
  exact ⟨h.1, hb, h.2⟩

end

theorem Member.isText_of_same {ms ms' : List Member} (h : List.Forall₂ Same ms ms')
    (hm : ∀ m ∈ ms, IsText m.value) : ∀ m ∈ ms', IsText m.value := by
  intro m' hmem
  obtain ⟨m, hmem, -, hvalue⟩ := exists_of_forall₂ h hmem
  exact hvalue ▸ hm m hmem

theorem Member.Same.name?_eq {m m' : Member} (h : m.Same m') : m.name? = m'.name? := by
  rw [name?, name?, h.1]

theorem Member.Same.pair?_eq {α : Type} {m m' : Member} (h : m.Same m') (f : Reader α) :
    m.pair? f = m'.pair? f := by
  rw [pair?, pair?, h.name?_eq, h.2]

theorem Member.isSome_pair? {α : Type} {m : Member} {f : Reader α} :
    (m.pair? f).isSome ↔ m.name?.isSome ∧ (whole? f m.value).isSome := by
  rw [pair?]
  cases m.name? <;> simp

section
variable {room : Nat} {blank : Document}

theorem object_eq_some {ms : List Member} (hb : Blank blank) (hm : ∀ m ∈ ms, IsText m.value)
    {v : Json} : whole? (readValue room) (objectText blank ms) = some v ↔
      0 < room ∧ ∃ es, ms.mapM (Member.pair? (readValue (room - 1))) = some es ∧ .object es = v := by
  cases room with
  | zero => simp [(makes_object_zero blank ms).whole?_eq]
  | succ room =>
    rw [whole?_object hb hm, Option.map_eq_some_iff]
    simp

theorem array_eq_some {is : List Item} (hb : Blank blank) (hi : ∀ i ∈ is, IsText i.value)
    {v : Json} : whole? (readValue room) (arrayText blank is) = some v ↔
      0 < room ∧ ∃ vs, is.mapM (fun i => whole? (readValue (room - 1)) i.value) = some vs ∧
        .array vs = v := by
  cases room with
  | zero => simp [(makes_array_zero blank is).whole?_eq]
  | succ room =>
    rw [whole?_array hb hi, Option.map_eq_some_iff]
    simp

theorem isSome_object {ms : List Member} (hb : Blank blank) (hm : ∀ m ∈ ms, IsText m.value) :
    (whole? (readValue room) (objectText blank ms)).isSome ↔
      0 < room ∧ ∀ m ∈ ms, (m.pair? (readValue (room - 1))).isSome := by
  rw [← isSome_mapM, Option.isSome_iff_exists, Option.isSome_iff_exists]
  simp [object_eq_some hb hm]

theorem isSome_array {is : List Item} (hb : Blank blank) (hi : ∀ i ∈ is, IsText i.value) :
    (whole? (readValue room) (arrayText blank is)).isSome ↔
      0 < room ∧ ∀ i ∈ is, (whole? (readValue (room - 1)) i.value).isSome := by
  rw [← isSome_mapM, Option.isSome_iff_exists, Option.isSome_iff_exists]
  simp [array_eq_some hb hi]

end

namespace Edit

variable {S : Schema} {room : Nat} {t t' : Document}

theorem isText_left (h : Edit S room t t') : IsText t := by
  cases h with
  | reorder hb hm => exact .object hb hm
  | layout hb _ hm => exact .object hb hm
  | insert hb hm => exact .object hb hm
  | member hb hm => exact .object hb hm
  | item hb hi => exact .array hb hi

/-- Only arrays and objects are changed, and stay what they are. -/
theorem bracket (h : Edit S room t t') : ∃ c d d', (c = '[' ∨ c = '\x7b') ∧
    t = .char c :: d ∧ t' = .char c :: d' := by
  cases h with
  | item => exact ⟨_, _, _, .inl rfl, rfl, rfl⟩
  | _ => exact ⟨_, _, _, .inr rfl, rfl, rfl⟩

/-- What is changed has the form of a value again. -/
theorem isText_right (h : Edit S room t t') : IsText t' := by
  induction h with
  | reorder hb hm _ hperm => exact .object hb fun m hmem => hm m (hperm.mem_iff.mpr hmem)
  | layout _ hb' hm hsame => exact .object hb' (Member.isText_of_same hsame hm)
  | insert hb hm _ _ ht => exact .object hb (forall_mem_insert hm ht)
  | member hb hm _ ih => exact .object hb (forall_mem_replace hm ih)
  | item hb hi _ ih => exact .array hb (forall_mem_replace hi ih)

/-- What is changed can be read if it could be read before. -/
theorem readable (h : Edit S room t t') (hread : (whole? (readValue room) t).isSome) :
    (whole? (readValue room) t').isSome := by
  induction h with
  | reorder hb hm _ hperm =>
    rw [isSome_object hb hm] at hread
    rw [isSome_object hb fun m hmem => hm m (hperm.mem_iff.mpr hmem)]
    exact ⟨hread.1, fun m hmem => hread.2 m (hperm.mem_iff.mpr hmem)⟩
  | layout hb hb' hm hsame =>
    rw [isSome_object hb hm] at hread
    rw [isSome_object hb' (Member.isText_of_same hsame hm)]
    refine ⟨hread.1, fun m' hmem => ?_⟩
    obtain ⟨m, hmem, hmm⟩ := exists_of_forall₂ hsame hmem
    exact hmm.pair?_eq _ ▸ hread.2 m hmem
  | insert hb hm hname _ ht hv =>
    rw [isSome_object hb hm] at hread
    rw [isSome_object hb (forall_mem_insert hm ht)]
    exact ⟨hread.1, forall_mem_insert hread.2 (Member.isSome_pair?.mpr ⟨hname ▸ rfl, hv⟩)⟩
  | @member S room blank value ms ms' m hb hm hedit ih =>
    rw [isSome_object hb hm] at hread
    rw [isSome_object hb (forall_mem_replace hm hedit.isText_right)]
    obtain ⟨hname, hv⟩ := Member.isSome_pair?.mp
      (hread.2 m (List.mem_append_right _ List.mem_cons_self))
    exact ⟨hread.1, forall_mem_replace hread.2 (Member.isSome_pair?.mpr ⟨hname, ih hv⟩)⟩
  | @item S room blank value is is' i hb hi hedit ih =>
    rw [isSome_array hb hi] at hread
    rw [isSome_array hb (forall_mem_replace hi hedit.isText_right)]
    have hv := hread.2 i (List.mem_append_right _ List.mem_cons_self)
    exact ⟨hread.1, forall_mem_replace hread.2 (ih hv)⟩

end Edit

/-! ## Values in order -/

theorem map_name?_of_mapM {α : Type} {f : Reader α} {ms : List Member} {es : List (String × α)}
    (h : ms.mapM (Member.pair? f) = some es) : ms.map Member.name? = es.map fun e => some e.1 := by
  induction mapM_eq_some_iff.mp h with
  | nil => rfl
  | cons hme _ ih =>
    rw [List.map_cons, List.map_cons, (Member.pair?_eq_some.mp hme).1, ih (mapM_eq_some_iff.mpr ‹_›)]

/-- The order of members with different names does not matter. -/
theorem canonicalMembers_perm {es es' : List (String × Json)} (h : es.Perm es')
    (hnodup : (es.map Prod.fst).Nodup) (d : Dict Json) :
    canonicalMembers es d = canonicalMembers es' d := by
  rw [canonicalMembers_eq_foldl, canonicalMembers_eq_foldl]
  refine h.foldl_eq' (fun e he e' he' d => ?_) d
  by_cases heq : e = e'
  · rw [heq]
  · exact Dict.insert_comm (fun hname => heq (List.inj_on_of_nodup_map hnodup he he' hname)) _ _ d

/-- Where nothing is known of the value, a change leaves the value as it is when in order. -/
theorem Edit.canonical {S : Schema} {room : Nat} {t t' : Document} (h : Edit S room t t')
    (hS : S = .any) {v : Json} (hv : whole? (readValue room) t = some v) :
    ∃ v', whole? (readValue room) t' = some v' ∧ v'.canonical = v.canonical := by
  induction h generalizing v with
  | reorder hb hm hnodup hperm =>
    obtain ⟨hroom, es, hes, rfl⟩ := (object_eq_some hb hm).mp hv
    obtain ⟨es', hes', hperm'⟩ := perm_mapM hperm hes
    have hnames : (es.map Prod.fst).Nodup := by
      rw [map_name?_of_mapM hes, ← Function.comp_def some, ← List.map_map] at hnodup
      exact hnodup.of_map some
    refine ⟨.object es', (object_eq_some hb fun m hmem => hm m (hperm.mem_iff.mpr hmem)).mpr
      ⟨hroom, es', hes', rfl⟩, ?_⟩
    rw [Json.canonical, Json.canonical, canonicalMembers_perm hperm' hnames]
  | layout hb hb' hm hsame =>
    obtain ⟨hroom, es, hes, rfl⟩ := (object_eq_some hb hm).mp hv
    rw [mapM_congr hsame fun m _ m' hmm => hmm.pair?_eq _] at hes
    exact ⟨.object es, (object_eq_some hb' (Member.isText_of_same hsame hm)).mpr
      ⟨hroom, es, hes, rfl⟩, rfl⟩
  | insert => cases hS
  | member hb hm hedit ih =>
    obtain ⟨hroom, es, hes, rfl⟩ := (object_eq_some hb hm).mp hv
    obtain ⟨es₁, ⟨name, w⟩, es₂, hes₁, he, hes₂, rfl⟩ := mapM_append_cons.mp hes
    obtain ⟨hname, hw⟩ := Member.pair?_eq_some.mp he
    obtain ⟨w', hw', hcanonical⟩ := ih (by rw [hS]; rfl) hw
    refine ⟨.object (es₁ ++ (name, w') :: es₂),
      (object_eq_some hb (forall_mem_replace hm hedit.isText_right)).mpr ⟨hroom, _,
        mapM_append_cons.mpr ⟨es₁, (name, w'), es₂, hes₁,
          Member.pair?_eq_some.mpr ⟨hname, hw'⟩, hes₂, rfl⟩, rfl⟩, ?_⟩
    simp only [Json.canonical, canonicalMembers_eq_foldl, List.foldl_append, List.foldl_cons,
      hcanonical]
  | item hb hi hedit ih =>
    obtain ⟨hroom, vs, hvs, rfl⟩ := (array_eq_some hb hi).mp hv
    obtain ⟨vs₁, w, vs₂, hvs₁, hw, hvs₂, rfl⟩ := mapM_append_cons.mp hvs
    obtain ⟨w', hw', hcanonical⟩ := ih (by rw [hS]; rfl) hw
    refine ⟨.array (vs₁ ++ w' :: vs₂),
      (array_eq_some hb (forall_mem_replace hi hedit.isText_right)).mpr ⟨hroom, _,
        mapM_append_cons.mpr ⟨vs₁, w', vs₂, hvs₁, hw', hvs₂, rfl⟩, rfl⟩, ?_⟩
    simp only [Json.canonical, canonicalItems_eq_map, List.map_append, List.map_cons, hcanonical]

/-! ## Compact texts -/

/-- A member as it stands in a compact text. -/
def Member.compact (m : String × Json) : Member :=
  ⟨[], escaped m.1.toList, [], [], compactText m.2, [], blank_nil, quoted_escaped _, blank_nil,
    blank_nil, blank_nil⟩

/-- An item as it stands in a compact text. -/
def Item.compact (v : Json) : Item := ⟨[], compactText v, [], blank_nil, blank_nil⟩

theorem Member.name?_compact (m : String × Json) : (compact m).name? = some m.1 := by
  rw [name?]
  exact (readText_escaped _).trans (congrArg some String.ofList_toList)

theorem spreadMembers_compact : ∀ ms : List (String × Json),
    spreadMembers blank_nil blank_nil blank_nil compactText ms = ms.map Member.compact
  | [] => rfl
  | [_] => rfl
  | m :: m' :: ms => congrArg (Member.compact m :: ·) (spreadMembers_compact (m' :: ms))

theorem spreadItems_compact : ∀ vs : List Json,
    spreadItems blank_nil blank_nil compactText vs = vs.map Item.compact
  | [] => rfl
  | [_] => rfl
  | v :: v' :: vs => congrArg (Item.compact v :: ·) (spreadItems_compact (v' :: vs))

theorem compactText_object_eq (ms : List (String × Json)) :
    compactText (.object ms) = objectText [] (ms.map Member.compact) := by
  rw [compactText_object, spreadMembers_compact]

theorem compactText_array_eq (vs : List Json) :
    compactText (.array vs) = arrayText [] (vs.map Item.compact) := by
  rw [compactText_array, spreadItems_compact]

theorem Schema.inside_compact (fields : List (String × Schema)) (m : String × Json) :
    (Schema.record fields).inside (Member.compact m) = (fields.lookup m.1).getD .any := by
  rw [inside, Member.name?_compact, Option.bind_some]

namespace Edit

variable {S : Schema} {room : Nat} {ms ms' : List (String × Json)}

theorem forall_compact (h : ∀ m ∈ ms, IsText (compactText m.2)) :
    ∀ m ∈ ms.map Member.compact, IsText m.value := by
  intro m hm
  obtain ⟨p, hp, rfl⟩ := List.mem_map.mp hm
  exact h p hp

/-- In the compact text of an object, members with different names may come in any order. -/
theorem compact_perm (h : ∀ m ∈ ms, IsText (compactText m.2)) (hnodup : (ms.map Prod.fst).Nodup)
    (hperm : ms.Perm ms') : Edit S room (compactText (.object ms)) (compactText (.object ms')) := by
  rw [compactText_object_eq, compactText_object_eq]
  refine .reorder blank_nil (forall_compact h) ?_ (hperm.map _)
  have hnames : (ms.map Member.compact).map Member.name? = (ms.map Prod.fst).map some := by
    simp [Function.comp_def, Member.name?_compact]
  rw [hnames]
  exact hnodup.map fun _ _ => Option.some.inj

/-- In the compact text of a record, a member that is no field may be added anywhere. -/
theorem compact_insert (ms ms' : List (String × Json)) {fields : List (String × Schema)}
    {m : String × Json} (h : ∀ m ∈ ms ++ ms', IsText (compactText m.2))
    (hname : m.1 ∉ fields.map Prod.fst)
    (hv : Spells (room - 1) m.2 (compactText m.2)) : Edit (.record fields) room
      (compactText (.object (ms ++ ms'))) (compactText (.object (ms ++ m :: ms'))) := by
  have hm := forall_compact h
  rw [List.map_append] at hm
  rw [compactText_object_eq, compactText_object_eq, List.map_append, List.map_append, List.map_cons]
  exact .insert blank_nil hm (Member.name?_compact m) hname hv.1 (Option.isSome_of_eq_some hv.2)

theorem compact_member (ms ms' : List (String × Json)) {name : String} {v v' : Json}
    (h : ∀ m ∈ ms ++ (name, v) :: ms', IsText (compactText m.2))
    (hedit : Edit (S.inside (Member.compact (name, v))) (room - 1) (compactText v) (compactText v')) :
    Edit S room (compactText (.object (ms ++ (name, v) :: ms')))
      (compactText (.object (ms ++ (name, v') :: ms'))) := by
  have hm := forall_compact h
  rw [List.map_append, List.map_cons] at hm
  rw [compactText_object_eq, compactText_object_eq, List.map_append, List.map_append, List.map_cons,
    List.map_cons]
  exact .member blank_nil hm hedit

theorem compact_item (vs vs' : List Json) {v v' : Json}
    (h : ∀ w ∈ vs ++ v :: vs', IsText (compactText w))
    (hedit : Edit (S.item vs.length) (room - 1) (compactText v) (compactText v')) :
    Edit S room (compactText (.array (vs ++ v :: vs'))) (compactText (.array (vs ++ v' :: vs'))) := by
  have hi : ∀ i ∈ vs.map Item.compact ++ Item.compact v :: vs'.map Item.compact, IsText i.value := by
    intro i hi
    rw [← List.map_cons, ← List.map_append] at hi
    obtain ⟨w, hw, rfl⟩ := List.mem_map.mp hi
    exact h w hw
  have hlength : (vs.map Item.compact).length = vs.length := List.length_map _
  rw [compactText_array_eq, compactText_array_eq, List.map_append, List.map_append, List.map_cons,
    List.map_cons]
  exact .item blank_nil hi (hlength ▸ hedit)

end Edit

/-! ## Decoders -/

namespace Decoder

variable {α β : Type} {S : Schema} {inner : Decoder α}

/-- Of a text that was changed the decoder makes what it made of it before. -/
def Respects (decoder : Decoder α) (S : Schema) : Prop :=
  ∀ ⦃room : Nat⦄ ⦃t t' : Document⦄ ⦃a : α⦄, Edit S room t t' →
    whole? (decoder.live room) t = some a → whole? (decoder.live room) t' = some a

theorem respects_json : json.Respects .any := by
  intro room t t' a h ha
  have hmap {t : Document} (ht : IsText t) : whole? (json.live room) t =
      (whole? (readValue room) t).map canonical :=
    ((ht.exact_value room).map canonical).whole?_eq
  rw [hmap h.isText_left] at ha
  obtain ⟨v, hv, rfl⟩ := Option.map_eq_some_iff.mp ha
  obtain ⟨v', hv', hcanonical⟩ := h.canonical rfl hv
  rw [hmap h.isText_right, hv', Option.map_some, hcanonical]

/-- A decoder respects all changes if it makes nothing of arrays and objects. -/
theorem respects_of_none {decoder : Decoder α}
    (h : ∀ room c d, c = '[' ∨ c = '\x7b' → Makes (decoder.live room) (.char c :: d) none) :
    decoder.Respects S := by
  intro room t t' a hedit ha
  obtain ⟨c, d, d', hc, rfl, -⟩ := hedit.bracket
  rw [(h room c d hc).whole?_eq] at ha
  cases ha

theorem respects_text : text.Respects S := by
  refine respects_of_none fun room c d hc => ?_
  rcases hc with rfl | rfl <;> exact makes_text_other (starts_cons rfl) (by nofun) room

theorem respects_number : number.Respects S := by
  refine respects_of_none fun room c d hc => ?_
  rcases hc with rfl | rfl <;> exact makes_number_other rfl (by decide) rfl room

theorem respects_boolean : boolean.Respects S := by
  refine respects_of_none fun room c d hc => ?_
  rcases hc with rfl | rfl <;> exact makes_boolean_other (starts_cons rfl) (by nofun) (by nofun) room

theorem Respects.option (hlawful : inner.Lawful) (h : inner.Respects S) :
    (option inner).Respects S := by
  intro room t t' o hedit ho
  have hsome {t : Document} (ht : IsText t) (hn : HeadNe 'n' t) :
      whole? ((Decoder.option inner).live room) t = (whole? (inner.live room) t).map some :=
    (makes_option_other ht.starts hn (hlawful.exact ht room)).whole?_eq
  have hn : HeadNe 'n' t ∧ HeadNe 'n' t' := by
    obtain ⟨c, d, d', hc, rfl, rfl⟩ := hedit.bracket
    rcases hc with rfl | rfl <;> exact ⟨by nofun, by nofun⟩
  rw [hsome hedit.isText_left hn.1] at ho
  obtain ⟨a, ha, rfl⟩ := Option.map_eq_some_iff.mp ho
  rw [hsome hedit.isText_right hn.2, h hedit ha, Option.map_some]

theorem Respects.refine (hlawful : inner.Lawful) (h : inner.Respects S)
    (check : α → Except Problem β) : (inner.refine check).Respects S := by
  intro room t t' b hedit hb
  have hbind {t : Document} (ht : IsText t) : whole? ((inner.refine check).live room) t =
      (whole? (inner.live room) t).bind fun a => (check a).toOption :=
    (makes_refine (hlawful.exact ht room)).whole?_eq
  rw [hbind hedit.isText_left] at hb
  obtain ⟨a, ha, hb⟩ := Option.bind_eq_some_iff.mp hb
  rw [hbind hedit.isText_right, h hedit ha, Option.bind_some, hb]

theorem list_eq_some (hlawful : inner.Lawful) {room : Nat} {blank : Document} {is : List Item}
    (hb : Blank blank) (hi : ∀ i ∈ is, IsText i.value) {l : List α} :
    whole? ((list inner).live room) (arrayText blank is) = some l ↔
      0 < room ∧ is.mapM (fun i => whole? (inner.live (room - 1)) i.value) = some l := by
  cases room with
  | zero => simp [(makes_list_zero blank is).whole?_eq]
  | succ room =>
    rw [(makes_list (fun i h => hlawful.exact (hi i h) room) (fun i h => (hi i h).starts) hb).whole?_eq]
    simp

theorem Respects.list (hlawful : inner.Lawful) (h : ∀ index, inner.Respects (S.item index)) :
    (list inner).Respects S := by
  intro room t t' l hedit hl
  have hobject {blank : Document} {ms : List Member} :
      whole? ((Decoder.list inner).live room) (objectText blank ms) = none :=
    (makes_list_other (starts_cons rfl) (by nofun)).whole?_eq
  cases hedit with
  | item hb hi hedit =>
    obtain ⟨hroom, hl⟩ := (list_eq_some hlawful hb hi).mp hl
    obtain ⟨l₁, a, l₂, hl₁, ha, hl₂, rfl⟩ := mapM_append_cons.mp hl
    exact (list_eq_some hlawful hb (forall_mem_replace hi hedit.isText_right)).mpr ⟨hroom,
      mapM_append_cons.mpr ⟨l₁, a, l₂, hl₁, h _ hedit ha, hl₂, rfl⟩⟩
  | _ => rw [hobject] at hl; cases hl

theorem dict_eq_some (hlawful : inner.Lawful) {room : Nat} {blank : Document} {ms : List Member}
    (hb : Blank blank) (hm : ∀ m ∈ ms, IsText m.value) {entries : Dict α} :
    whole? ((dict inner).live room) (objectText blank ms) = some entries ↔ 0 < room ∧
      ms.foldlM (fun entries m => (m.pair? (inner.live (room - 1))).map (addEntry entries)) [] =
        some entries := by
  cases room with
  | zero => simp [(makes_dict_zero blank ms).whole?_eq]
  | succ room =>
    rw [(makes_dict (fun m h => hlawful.exact (hm m h) room) hb).whole?_eq]
    simp

/-- Members with different names may be added to a dictionary in any order. -/
theorem addEntry_comm {f : Reader α} {ms : List Member} (hnodup : (ms.map Member.name?).Nodup)
    {m m' : Member} (hm : m ∈ ms) (hm' : m' ∈ ms) (hne : m ≠ m') (entries : Dict α) :
    ((m.pair? f).map (addEntry entries)).bind (fun entries => (m'.pair? f).map (addEntry entries)) =
      ((m'.pair? f).map (addEntry entries)).bind fun entries => (m.pair? f).map (addEntry entries) := by
  have hname : m.name? ≠ m'.name? := fun h => hne (List.inj_on_of_nodup_map hnodup hm hm' h)
  cases he : m.pair? f with
  | none => cases m'.pair? f <;> rfl
  | some e =>
    cases he' : m'.pair? f with
    | none => rfl
    | some e' =>
      have hkey : e.1 ≠ e'.1 := by
        rw [(Member.pair?_eq_some.mp he).1, (Member.pair?_eq_some.mp he').1] at hname
        exact fun h => hname (congrArg some h)
      exact congrArg some (Dict.insert_comm hkey e.2 e'.2 entries)

theorem Respects.dict (hlawful : inner.Lawful) (h : inner.Respects .any) :
    (dict inner).Respects .any := by
  intro room t t' entries hedit hentries
  cases hedit with
  | reorder hb hm hnodup hperm =>
    obtain ⟨hroom, hentries⟩ := (dict_eq_some hlawful hb hm).mp hentries
    rw [foldlM_perm hperm fun m hm m' hm' hne => addEntry_comm hnodup hm hm' hne] at hentries
    exact (dict_eq_some hlawful hb fun m hmem => hm m (hperm.mem_iff.mpr hmem)).mpr
      ⟨hroom, hentries⟩
  | layout hb hb' hm hsame =>
    obtain ⟨hroom, hentries⟩ := (dict_eq_some hlawful hb hm).mp hentries
    rw [foldlM_congr hsame fun m _ m' hmm entries => by rw [hmm.pair?_eq]] at hentries
    exact (dict_eq_some hlawful hb' (Member.isText_of_same hsame hm)).mpr ⟨hroom, hentries⟩
  | @member _ _ _ value _ _ m hb hm hedit =>
    obtain ⟨hroom, hentries⟩ := (dict_eq_some hlawful hb hm).mp hentries
    refine (dict_eq_some hlawful hb (forall_mem_replace hm hedit.isText_right)).mpr ⟨hroom,
      foldlM_replace (fun d d' hd => ?_) hentries⟩
    obtain ⟨e, he, rfl⟩ := Option.map_eq_some_iff.mp hd
    obtain ⟨hname, ha⟩ := Member.pair?_eq_some.mp he
    have hany : Edit .any (room - 1) m.value value := hedit
    have he' : (m.withValue value).pair? (inner.live (room - 1)) = some e :=
      Member.pair?_eq_some.mpr ⟨hname, h hany ha⟩
    rw [he', Option.map_some]
  | @item _ _ blank value is is' i =>
    have harray : whole? ((Decoder.dict inner).live room) (arrayText blank (is ++ i :: is')) = none :=
      (makes_dict_other (starts_cons rfl) (by nofun)).whole?_eq
    rw [harray] at hentries
    cases hentries

end Decoder

end MicroFrontends.Json
