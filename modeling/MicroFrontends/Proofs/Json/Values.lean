import MicroFrontends.Proofs.Folds
import MicroFrontends.Proofs.Json.Structure

/-!
# Reading any value

What `readValue` makes of a text that has the form of a value depends neither on the blanks before
it nor on what comes after it (`IsText.exact_value`), and of an array or an object it makes the
values of the items or members, one level of nesting further down (`whole?_array`, `whole?_object`).
-/

namespace MicroFrontends.Json

variable {α β : Type}

/-! ## Readers made of others -/

theorem Makes.map {f : Reader α} {t : Document} {x : Option α} (h : Makes f t x) (g : α → β) :
    Makes (fun d => do
      let (v, d) ← f d
      return (g v, d)) t (x.map g) := by
  intro blank rest hb hr
  rw [Except.toOption_bind, h blank rest hb hr]
  cases x <;> rfl

theorem Member.Makes.of_value {m : Member} {f : Reader α} {x : Option α} (h : Json.Makes f m.value x)
    (g : α → β) : m.Makes (fun d => do
      let (v, d) ← f (← readColon d)
      return (g v, d)) (x.map g) := by
  intro rest hr
  dsimp only
  rw [readColon_append m.blank_middle, Except.ok_bind]
  exact h.map g m.between rest m.blank_between hr

/-- What a reader makes of a member: its name and what the reader makes of its value. -/
def Member.pair? (f : Reader α) (m : Member) : Option (String × α) :=
  m.name?.bind fun name => (whole? f m.value).map (name, ·)

theorem Member.pair?_eq_some {f : Reader α} {m : Member} {p : String × α} :
    m.pair? f = some p ↔ m.name? = some p.1 ∧ whole? f m.value = some p.2 := by
  obtain ⟨name, v⟩ := p
  simp [pair?, Option.bind_eq_some_iff]

/-! ## Values -/

theorem readValue_openArray {room : Nat} {d d' : Document} (h : skipSpace d = .char '[' :: d') :
    readValue (room + 1) d = (readArray (fun items d => do
        let (v, d) ← readValue room d
        return (v :: items, d)) [] d').map fun p => (.array p.1.reverse, p.2) := by
  rw [readValue, h]
  rfl

theorem readValue_openObject {room : Nat} {d d' : Document} (h : skipSpace d = .char '\x7b' :: d') :
    readValue (room + 1) d = (readObject (fun members name d => do
        let (v, d) ← readValue room (← readColon d)
        return ((name, v) :: members, d)) [] d').map fun p => (.object p.1.reverse, p.2) := by
  rw [readValue, h]
  rfl

theorem whole?_readScalar_text {q : Document} (hq : Quoted q) :
    whole? readScalar (.char '"' :: q) = (whole? readText q).map .string := by
  have hread := readText_quoted hq []
  rw [List.append_nil] at hread
  rw [whole?, readScalar, Except.toOption_bind, hread]
  cases whole? readText q <;> rfl

theorem makes_scalar {t : Document} (h : ScalarText t) (room : Nat) :
    Makes (readValue room) t (whole? readScalar t) := by
  intro blank rest hb hr
  have hread := h.reads.eq hr
  obtain ⟨s, t', rfl, hd, harray, hobject⟩ := h.start
  rw [readValue, (starts_cons hd).skipSpace hb]
  split
  · next heq => exact absurd (List.cons.inj heq).1 harray
  · next heq => exact absurd (List.cons.inj heq).1 hobject
  · exact hread

theorem makes_array {room : Nat} {items : List Item} (hstart : ∀ i ∈ items, Starts i.value)
    (h : ∀ i ∈ items, Exact (readValue room) i.value) {pad : Document} (hp : Blank pad) :
    Makes (readValue (room + 1)) (arrayText pad items)
      ((items.mapM fun i => whole? (readValue room) i.value).map .array) := by
  intro blank rest hb hr
  have hread := toOption_readArray hstart (fun i hi acc => (h i hi).map (· :: acc)) [] hp rest
  rw [foldlM_push] at hread
  rw [readValue_openArray (skipSpace_array hb pad items rest), Except.toOption_map, hread]
  simp only [Option.map_map, Function.comp_def, List.reverse_reverse]

theorem makes_object {room : Nat} {members : List Member}
    (h : ∀ m ∈ members, Exact (readValue room) m.value) {pad : Document} (hp : Blank pad) :
    Makes (readValue (room + 1)) (objectText pad members)
      ((members.mapM (Member.pair? (readValue room))).map .object) := by
  intro blank rest hb hr
  have hread := toOption_readObject
    (fun m hm acc name => .of_value (h m hm) (fun v => (name, v) :: acc)) [] hp rest
  have hstep : memberStep (fun acc name m => (whole? (readValue room) m.value).map
      fun v => (name, v) :: acc) = fun acc m => (m.pair? (readValue room)).map (· :: acc) := by
    funext acc m
    simp only [memberStep, Member.pair?]
    cases m.name? <;> simp [Function.comp_def]
  rw [hstep, foldlM_push] at hread
  rw [readValue_openObject (skipSpace_object hb pad members rest), Except.toOption_map, hread]
  simp only [Option.map_map, Function.comp_def, List.reverse_reverse]

/-- There is no room for an array. -/
theorem makes_array_zero (pad : Document) (items : List Item) :
    Makes (readValue 0) (arrayText pad items) none := by
  intro blank rest hb hr
  rw [readValue, skipSpace_array hb]
  rfl

/-- There is no room for an object. -/
theorem makes_object_zero (pad : Document) (members : List Member) :
    Makes (readValue 0) (objectText pad members) none := by
  intro blank rest hb hr
  rw [readValue, skipSpace_object hb]
  rfl

/-- Of a value the same is read in any document. -/
theorem IsText.exact_value {t : Document} (h : IsText t) : ∀ room, Exact (readValue room) t := by
  induction h with
  | scalar hs => exact fun room => (makes_scalar hs room).exact
  | array hp hi ih =>
    intro room
    cases room with
    | zero => exact (makes_array_zero _ _).exact
    | succ room =>
      exact (makes_array (fun i h => (hi i h).starts) (fun i h => ih i h room) hp).exact
  | object hp hm ih =>
    intro room
    cases room with
    | zero => exact (makes_object_zero _ _).exact
    | succ room => exact (makes_object (fun m h => ih m h room) hp).exact

section
variable {room : Nat} {items : List Item} {members : List Member} {pad : Document}

theorem whole?_array (hp : Blank pad) (hi : ∀ i ∈ items, IsText i.value) :
    whole? (readValue (room + 1)) (arrayText pad items) =
      (items.mapM fun i => whole? (readValue room) i.value).map .array :=
  (makes_array (fun i h => (hi i h).starts) (fun i h => (hi i h).exact_value room) hp).whole?_eq

theorem whole?_object (hp : Blank pad) (hm : ∀ m ∈ members, IsText m.value) :
    whole? (readValue (room + 1)) (objectText pad members) =
      (members.mapM (Member.pair? (readValue room))).map .object :=
  (makes_object (fun m h => (hm m h).exact_value room) hp).whole?_eq

end

end MicroFrontends.Json
