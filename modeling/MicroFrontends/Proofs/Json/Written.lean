import MicroFrontends.Json.Render
import MicroFrontends.Proofs.Json.Decoders

/-!
# Texts that were written for values

The text that is written for a value, whether it is compact or spread over lines, is read as the
value (`Fits.spells_compact`, `Fits.spells_pretty`) if the value nests only so deep, its whole
numbers have 64 bits, and each float in it is read back from the text written for it. So a lawful
decoder makes of the text what it makes of the value (`Decoder.Lawful.parse_written`).
-/

namespace MicroFrontends

/-- The float is read back from the text that is written for it. -/
def Binary64.ReadsBack (x : Binary64) : Prop :=
  Json.readScalar (Document.ofText x.renderShort) = .ok (.float x, [])

namespace Json

/-- The value nests only as deep as the room, and its whole numbers have 64 bits. -/
inductive Fits : (room : Nat) → Json → Prop
  | null {room : Nat} : Fits room .null
  | bool {room : Nat} (b : Bool) : Fits room (.bool b)
  | int {room : Nat} {n : Int} : Fits64 n → Fits room (.int n)
  | float {room : Nat} (x : Binary64) : Fits room (.float x)
  | string {room : Nat} (s : String) : Fits room (.string s)
  | array {room : Nat} {vs : List Json} : (∀ v ∈ vs, Fits room v) → Fits (room + 1) (.array vs)
  | object {room : Nat} {ms : List (String × Json)} : (∀ m ∈ ms, Fits room m.2) →
    Fits (room + 1) (.object ms)

theorem Fits.mono {room : Nat} {v : Json} (h : Fits room v) :
    ∀ {more : Nat}, room ≤ more → Fits more v := by
  induction h with
  | array h ih =>
    intro more hle
    obtain ⟨more, rfl⟩ := Nat.exists_eq_add_one_of_ne_zero (Nat.ne_zero_of_lt hle)
    exact .array fun v hv => ih v hv (Nat.le_of_succ_le_succ hle)
  | object h ih =>
    intro more hle
    obtain ⟨more, rfl⟩ := Nat.exists_eq_add_one_of_ne_zero (Nat.ne_zero_of_lt hle)
    exact .object fun m hm => ih m hm (Nat.le_of_succ_le_succ hle)
  | int hn => exact fun _ => .int hn
  | null => exact fun _ => .null
  | bool b => exact fun _ => .bool b
  | float x => exact fun _ => .float x
  | string s => exact fun _ => .string s

mutual

/-- The floats that occur in a value. -/
def floats : Json → List Binary64
  | array items => floatsItems items
  | object members => floatsMembers members
  | float x => [x]
  | null => []
  | bool _ => []
  | int _ => []
  | string _ => []

def floatsItems : List Json → List Binary64
  | [] => []
  | v :: vs => v.floats ++ floatsItems vs

def floatsMembers : List (String × Json) → List Binary64
  | [] => []
  | (_, v) :: ms => v.floats ++ floatsMembers ms

end

theorem mem_floats_array {x : Binary64} : ∀ {vs : List Json},
    x ∈ (array vs).floats ↔ ∃ v ∈ vs, x ∈ v.floats
  | [] => by simp [floats, floatsItems]
  | v :: vs => by
    have ih : x ∈ (array vs).floats ↔ _ := mem_floats_array
    rw [floats] at ih ⊢
    rw [floatsItems, List.mem_append, ih]
    simp

theorem mem_floats_object {x : Binary64} : ∀ {ms : List (String × Json)},
    x ∈ (object ms).floats ↔ ∃ m ∈ ms, x ∈ m.2.floats
  | [] => by simp [floats, floatsMembers]
  | (k, v) :: ms => by
    have ih : x ∈ (object ms).floats ↔ _ := mem_floats_object
    rw [floats] at ih ⊢
    rw [floatsMembers, List.mem_append, ih]
    simp

theorem floatsMembers_append (ms ms' : List (String × Json)) :
    floatsMembers (ms ++ ms') = floatsMembers ms ++ floatsMembers ms' := by
  induction ms with
  | nil => rfl
  | cons m ms ih => rw [List.cons_append, floatsMembers, floatsMembers, ih, List.append_assoc]

theorem floatsItems_map {α : Type} (encode : α → Json) (l : List α) :
    floatsItems (l.map encode) = l.flatMap fun a => (encode a).floats := by
  induction l with
  | nil => rfl
  | cons a l ih => rw [List.map_cons, floatsItems, ih, List.flatMap_cons]

/-- The text has the form of a value, and the value is read from it. -/
def Spells (room : Nat) (v : Json) (t : Document) : Prop :=
  IsText t ∧ whole? (readValue room) t = some v

/-! ## Single values -/

theorem spells_scalar {room : Nat} {v : Json} {t : Document} (ht : ScalarText t)
    (h : whole? readScalar t = some v) : Spells room v t :=
  ⟨.scalar ht, by rw [(makes_scalar ht room).whole?_eq, h]⟩

theorem spells_of_readScalar {room : Nat} {v : Json} {t : Document}
    (h : readScalar t = .ok (v, [])) : Spells room v t := by
  obtain ⟨t', ht, hs⟩ := scalarText_of_readScalar h
  obtain rfl : t = t' := by rw [ht, List.append_nil]
  exact spells_scalar hs (by rw [whole?, h]; rfl)

theorem readScalar_int {n : Int} (h : Fits64 n) :
    readScalar (Document.ofText (toString n)) = .ok (.int n, []) := by
  have hmax : maxDigits = 2 ^ 64 - 1 := rfl
  obtain ⟨hmin, hlt⟩ := h
  cases n with
  | ofNat n =>
    have hn : n < Nat.pow 2 64 := Int.ofNat_lt.mp hlt
    have hpow : Nat.pow 2 64 = 2 ^ 64 := rfl
    have hread := readNumber_repr false (n := n) (by omega)
    obtain ⟨t, ht, hu, -⟩ := form_of_readNumber hread
    obtain ⟨s, t', rfl, hs⟩ := hu.exists_cons
    rw [List.append_nil] at ht
    show readScalar (Document.ofText n.repr) = _
    rw [ht, readScalar_digit hs, ← ht, hread]
    rfl
  | negSucc n =>
    have hpow : Nat.pow 2 63 = 2 ^ 63 := rfl
    have htext : Document.ofText (toString (Int.negSucc n)) =
        .char '-' :: Document.ofText (n + 1).repr := by
      show Document.ofText ("-" ++ (n + 1).repr) = _
      simp [Document.ofText]
    rw [htext]
    show readNumber true _ = _
    rw [readNumber_repr true (by omega), Signed.whole_neg (Nat.succ_pos n) (by omega)]
    rfl

theorem spells_string (room : Nat) (s : String) :
    Spells room (.string s) (Document.ofText (quote s)) := by
  have hq := quoted_escaped s.toList
  rw [ofDocument_quote]
  refine spells_scalar (.text hq) ?_
  rw [whole?_readScalar_text hq, readText_escaped, String.ofList_toList]
  rfl

/-- Values that are neither arrays nor objects. -/
def IsSingle : Json → Prop
  | .array _ | .object _ => False
  | _ => True

theorem Fits.spells_scalar {room : Nat} {v : Json} (h : Fits room v)
    (hx : ∀ x ∈ v.floats, x.ReadsBack) (hs : IsSingle v) :
    Spells room v (Document.ofText v.scalar) := by
  cases h with
  | null => exact spells_of_readScalar rfl
  | bool b => cases b <;> exact spells_of_readScalar rfl
  | int hn => exact spells_of_readScalar (readScalar_int hn)
  | float x => exact spells_of_readScalar (hx x (List.mem_singleton.mpr rfl))
  | string s => exact spells_string room s
  | array => exact hs.elim
  | object => exact hs.elim

/-! ## Arrays and objects -/

/-- Texts with commas between them, each after the same blanks. -/
def joined (before : Document) : List Document → Document
  | [] => []
  | [t] => before ++ t
  | t :: ts => before ++ t ++ .char ',' :: joined before ts

theorem joined_cons_cons (before t t' : Document) (ts : List Document) :
    joined before (t :: t' :: ts) = before ++ t ++ .char ',' :: joined before (t' :: ts) := rfl

section
variable {before between last : Document} (hb : Blank before) (hm : Blank between) (hl : Blank last)
  (text : Json → Document)

/-- Values as items of an array, each after the same blanks, and other blanks after the last one. -/
def spreadItems : List Json → List Item
  | [] => []
  | [v] => [⟨before, text v, last, hb, hl⟩]
  | v :: vs => ⟨before, text v, [], hb, blank_nil⟩ :: spreadItems vs

/-- Values with names as members of an object, with the blanks between a name and its value. -/
def spreadMembers : List (String × Json) → List Member
  | [] => []
  | [(k, v)] => [⟨before, escaped k.toList, [], between, text v, last, hb, quoted_escaped _, blank_nil,
      hm, hl⟩]
  | (k, v) :: ms => ⟨before, escaped k.toList, [], between, text v, [], hb, quoted_escaped _, blank_nil,
      hm, blank_nil⟩ :: spreadMembers ms

/-- A member as it is written: its name, a colon, and its value. -/
def memberText (between : Document) (m : String × Json) : Document :=
  Document.ofText (quote m.1) ++ .char ':' :: (between ++ text m.2)

theorem itemsText_spreadItems : ∀ vs : List Json, vs ≠ [] →
    itemsText (spreadItems hb hl text vs) =
      joined before (vs.map text) ++ (last ++ [.char ']'])
  | [v], _ => by simp [spreadItems, itemsText, Item.text, joined]
  | v :: v' :: vs, _ => by
    have ih := itemsText_spreadItems (v' :: vs) (List.cons_ne_nil _ _)
    rw [List.map_cons, List.map_cons, joined_cons_cons, List.append_assoc, List.cons_append,
      ← List.map_cons, ← ih]
    cases vs <;> simp [spreadItems, itemsText, Item.text, Item.listed]

theorem membersText_spreadMembers : ∀ ms : List (String × Json), ms ≠ [] →
    membersText (spreadMembers hb hm hl text ms) =
      joined before (ms.map (memberText text between)) ++ (last ++ [.char '\x7d'])
  | [(k, v)], _ => by
    simp [spreadMembers, membersText, Member.text, joined, memberText, ofDocument_quote]
  | (k, v) :: m' :: ms, _ => by
    have ih := membersText_spreadMembers (m' :: ms) (List.cons_ne_nil _ _)
    rw [List.map_cons, List.map_cons, joined_cons_cons, List.append_assoc, List.cons_append,
      ← List.map_cons, ← ih]
    cases ms <;> simp [spreadMembers, membersText, Member.text, Member.listed, memberText,
      ofDocument_quote]

variable {room : Nat} {text}

theorem forall₂_spreadItems : ∀ {vs : List Json}, (∀ v ∈ vs, Spells room v (text v)) →
    List.Forall₂ (fun i v => Spells room v i.value) (spreadItems hb hl text vs) vs
  | [], _ => .nil
  | [_], h => .cons (h _ List.mem_cons_self) .nil
  | _ :: _ :: _, h => .cons (h _ List.mem_cons_self)
      (forall₂_spreadItems fun v hv => h v (List.mem_cons_of_mem _ hv))

theorem forall₂_spreadMembers : ∀ {ms : List (String × Json)}, (∀ m ∈ ms, Spells room m.2 (text m.2)) →
    List.Forall₂ (fun m p => m.name? = some p.1 ∧ Spells room p.2 m.value)
      (spreadMembers hb hm hl text ms) ms
  | [], _ => .nil
  | [(k, v)], h => .cons ⟨by rw [Member.name?, readText_escaped, String.ofList_toList],
      h _ List.mem_cons_self⟩ .nil
  | (k, v) :: _ :: _, h => .cons ⟨by rw [Member.name?, readText_escaped, String.ofList_toList],
      h _ List.mem_cons_self⟩
      (forall₂_spreadMembers fun v hv => h v (List.mem_cons_of_mem _ hv))

end

theorem spells_array {room : Nat} {pad : Document} {items : List Item} {vs : List Json}
    (hp : Blank pad) (h : List.Forall₂ (fun i v => Spells room v i.value) items vs) :
    Spells (room + 1) (.array vs) (arrayText pad items) := by
  obtain ⟨hi, hvs⟩ := (List.forall₂_and_left _ _).mp h
  exact ⟨.array hp hi, by rw [whole?_array hp hi, mapM_eq_some_iff.mpr hvs, Option.map_some]⟩

theorem spells_object {room : Nat} {pad : Document} {members : List Member}
    {ms : List (String × Json)} (hp : Blank pad)
    (h : List.Forall₂ (fun m p => m.name? = some p.1 ∧ Spells room p.2 m.value) members ms) :
    Spells (room + 1) (.object ms) (objectText pad members) := by
  have hentry : List.Forall₂ (fun m p => IsText m.value ∧ m.pair? (readValue room) = some p)
      members ms :=
    h.imp fun m p hmp => ⟨hmp.2.1, Member.pair?_eq_some.mpr ⟨hmp.1, hmp.2.2⟩⟩
  obtain ⟨hm, hms⟩ := (List.forall₂_and_left _ _).mp hentry
  exact ⟨.object hp hm, by rw [whole?_object hp hm, mapM_eq_some_iff.mpr hms, Option.map_some]⟩

/-! ## Compact texts -/

theorem ofText_append (s t : String) :
    Document.ofText (s ++ t) = Document.ofText s ++ Document.ofText t := by
  simp [Document.ofText]

/-- The text of a value without blanks, as a document. -/
def compactText (v : Json) : Document := Document.ofText v.compact

theorem ofText_compactItems : ∀ vs : List Json,
    Document.ofText (compactItems vs) = joined [] (vs.map compactText)
  | [] => rfl
  | [_] => rfl
  | v :: v' :: vs => by
    have ih := ofText_compactItems (v' :: vs)
    rw [List.map_cons, List.map_cons, joined_cons_cons, ← List.map_cons, ← ih, compactItems,
      ofText_append, ofText_append, List.append_assoc]
    · rfl
    · exact List.cons_ne_nil _ _

theorem ofText_compactMembers : ∀ ms : List (String × Json),
    Document.ofText (compactMembers ms) = joined [] (ms.map (memberText compactText []))
  | [] => rfl
  | [(k, v)] => by simp [compactMembers, joined, memberText, compactText, Document.ofText]
  | (k, v) :: m' :: ms => by
    have ih := ofText_compactMembers (m' :: ms)
    rw [List.map_cons, List.map_cons, joined_cons_cons, ← List.map_cons, ← ih, compactMembers]
    · simp [memberText, compactText, Document.ofText]
    · exact List.cons_ne_nil _ _

theorem compactText_array (vs : List Json) : compactText (.array vs) =
    arrayText [] (spreadItems blank_nil blank_nil compactText vs) := by
  have htext : compactText (.array vs) =
      .char '[' :: (joined [] (vs.map compactText) ++ [.char ']']) := by
    rw [← ofText_compactItems, compactText, compact]
    simp [Document.ofText]
  rw [htext, arrayText]
  cases vs with
  | nil => rfl
  | cons v vs => rw [itemsText_spreadItems _ _ _ _ (List.cons_ne_nil _ _)]; rfl

theorem compactText_object (ms : List (String × Json)) : compactText (.object ms) =
    objectText [] (spreadMembers blank_nil blank_nil blank_nil compactText ms) := by
  have htext : compactText (.object ms) =
      .char '\x7b' :: (joined [] (ms.map (memberText compactText [])) ++ [.char '\x7d']) := by
    rw [← ofText_compactMembers, compactText, compact]
    simp [Document.ofText]
  rw [htext, objectText]
  cases ms with
  | nil => rfl
  | cons m ms => rw [membersText_spreadMembers _ _ _ _ _ (List.cons_ne_nil _ _)]; rfl

/-- A value is read from its compact text. -/
theorem Fits.spells_compact {room : Nat} {v : Json} (h : Fits room v)
    (hx : ∀ x ∈ v.floats, x.ReadsBack) : Spells room v (compactText v) := by
  induction h with
  | array h ih =>
    rw [compactText_array]
    exact spells_array blank_nil (forall₂_spreadItems _ _ fun v hv =>
      ih v hv fun x hmem => hx x (mem_floats_array.mpr ⟨v, hv, hmem⟩))
  | object h ih =>
    rw [compactText_object]
    exact spells_object blank_nil (forall₂_spreadMembers _ _ _ fun m hm =>
      ih m hm fun x hmem => hx x (mem_floats_object.mpr ⟨m, hm, hmem⟩))
  | null => exact Fits.null.spells_scalar hx trivial
  | bool b => exact (Fits.bool b).spells_scalar hx trivial
  | int hn => exact (Fits.int hn).spells_scalar hx trivial
  | float x => exact (Fits.float x).spells_scalar hx trivial
  | string s => exact (Fits.string s).spells_scalar hx trivial

/-! ## Texts with one item a line -/

theorem blank_singleton {s : Symbol} (h : isSpace s = true) : Blank [s] := by
  intro s' hs
  obtain rfl := List.mem_singleton.mp hs
  exact h

theorem blank_newline (level : Nat) : Blank (Document.ofText (newline level)) := by
  rw [newline, ofText_append]
  refine (blank_singleton rfl : Blank [.char '\n']).append fun s hs => ?_
  simp only [Document.ofText, String.toList_ofList, List.map_replicate, List.mem_replicate] at hs
  obtain ⟨-, rfl⟩ := hs
  rfl

/-- The text of a value at a level with one item or member a line, as a document. -/
def prettyText (level : Nat) (v : Json) : Document := Document.ofText (v.prettyAt level)

theorem ofText_prettyItems (level : Nat) : ∀ vs : List Json,
    Document.ofText (prettyItems level vs) =
      joined (Document.ofText (newline level)) (vs.map (prettyText level))
  | [] => rfl
  | [v] => by rw [prettyItems, ofText_append]; rfl
  | v :: v' :: vs => by
    have ih := ofText_prettyItems level (v' :: vs)
    rw [List.map_cons, List.map_cons, joined_cons_cons, ← List.map_cons, ← ih, prettyItems]
    · simp [prettyText, Document.ofText]
    · exact List.cons_ne_nil _ _

theorem ofText_prettyMembers (level : Nat) : ∀ ms : List (String × Json),
    Document.ofText (prettyMembers level ms) =
      joined (Document.ofText (newline level)) (ms.map (memberText (prettyText level) [.char ' ']))
  | [] => rfl
  | [(k, v)] => by simp [prettyMembers, joined, memberText, prettyText, Document.ofText]
  | (k, v) :: m' :: ms => by
    have ih := ofText_prettyMembers level (m' :: ms)
    rw [List.map_cons, List.map_cons, joined_cons_cons, ← List.map_cons, ← ih, prettyMembers]
    · simp [memberText, prettyText, Document.ofText]
    · exact List.cons_ne_nil _ _

theorem prettyText_array (level : Nat) (vs : List Json) : prettyText level (.array vs) =
    arrayText [] (spreadItems (blank_newline (level + 1)) (blank_newline level)
      (prettyText (level + 1)) vs) := by
  cases vs with
  | nil => simp [prettyText, prettyAt, scalar, arrayText, spreadItems, itemsText, Document.ofText]
  | cons v vs =>
    rw [arrayText, itemsText_spreadItems _ _ _ _ (List.cons_ne_nil _ _), ← ofText_prettyItems,
      prettyText, prettyAt]
    simp [Document.ofText]

theorem prettyText_object (level : Nat) (ms : List (String × Json)) :
    prettyText level (.object ms) =
      objectText [] (spreadMembers (blank_newline (level + 1))
        (blank_singleton (rfl : isSpace (.char ' ') = true)) (blank_newline level)
        (prettyText (level + 1)) ms) := by
  cases ms with
  | nil => simp [prettyText, prettyAt, scalar, objectText, spreadMembers, membersText, Document.ofText]
  | cons m ms =>
    rw [objectText, membersText_spreadMembers _ _ _ _ _ (List.cons_ne_nil _ _),
      ← ofText_prettyMembers, prettyText, prettyAt]
    simp [Document.ofText]

/-- A value is read from its text with one item or member a line, at any level. -/
theorem Fits.spells_pretty {room : Nat} {v : Json} (h : Fits room v)
    (hx : ∀ x ∈ v.floats, x.ReadsBack) : ∀ level, Spells room v (prettyText level v) := by
  induction h with
  | array h ih =>
    intro level
    rw [prettyText_array]
    exact spells_array blank_nil (forall₂_spreadItems _ _ fun v hv =>
      ih v hv (fun x hmem => hx x (mem_floats_array.mpr ⟨v, hv, hmem⟩)) (level + 1))
  | object h ih =>
    intro level
    rw [prettyText_object]
    exact spells_object blank_nil (forall₂_spreadMembers _ _ _ fun m hm =>
      ih m hm (fun x hmem => hx x (mem_floats_object.mpr ⟨m, hm, hmem⟩)) (level + 1))
  | null => exact fun _ => Fits.null.spells_scalar hx trivial
  | bool b => exact fun _ => (Fits.bool b).spells_scalar hx trivial
  | int hn => exact fun _ => (Fits.int hn).spells_scalar hx trivial
  | float x => exact fun _ => (Fits.float x).spells_scalar hx trivial
  | string s => exact fun _ => (Fits.string s).spells_scalar hx trivial

/-- A value is decoded from its texts as it would be decoded without them. -/
theorem Decoder.Lawful.parse_written {α : Type} {decoder : Decoder α} (hd : decoder.Lawful)
    {v : Json} (hfits : Fits maxNesting v) (hx : ∀ x ∈ v.floats, x.ReadsBack) {a : α}
    (ha : decoder.kept v = .ok a) :
    ∀ text ∈ [v.compact, v.pretty], decoder.parse (.ofText text) = .ok a := by
  have hparse {t : Document} (h : Spells maxNesting v t) : decoder.parse t = .ok a := by
    have hwhole := (hd.parse_eq_ok h.1 blank_nil blank_nil (a := a)).mpr
      ((hd.agrees h.1 h.2).trans (Except.toOption_eq_some.mpr ha))
    rwa [List.nil_append, List.append_nil] at hwhole
  refine List.forall_mem_cons.mpr ⟨hparse (hfits.spells_compact hx),
    List.forall_mem_singleton.mpr (hparse (hfits.spells_pretty hx 0))⟩

end Json

end MicroFrontends
