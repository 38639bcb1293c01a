import Mathlib.Data.List.TakeWhile
import MicroFrontends.Json.Decoder
import MicroFrontends.Proofs.Json.Forms

/-!
# What decoders make of texts

A decoder is lawful if it takes only values, if what it makes of a text in a document is what it
makes of the text alone, and if it makes the same of a text and of the value that is read from it.
All decoders that are made of others are lawful if these are (`Decoder.lawful_list` and so on).
-/

namespace MicroFrontends.Json

/-! ## Values of single texts -/

/-- The text does not start with the character. -/
def HeadNe (c : Char) (t : Document) : Prop := ∀ t', t ≠ .char c :: t'

theorem HeadNe.append {c : Char} {t : Document} (h : HeadNe c t) (ht : Starts t) (rest : Document) :
    HeadNe c (t ++ rest) := by
  cases t with
  | nil => exact absurd rfl ht.ne_nil
  | cons s t =>
    intro t' heq
    exact h t (congrArg (· :: t) (List.cons.inj heq).1)

theorem NumberText.headNe {t : Document} (h : NumberText t) {c : Char} (hc : c ≠ '-')
    (hd : isDigit (.char c) = false) : HeadNe c t := by
  rcases h with hu | ⟨u, rfl, hu⟩
  · obtain ⟨s, t', rfl, hs⟩ := hu.exists_cons
    intro t'' heq
    rw [(List.cons.inj heq).1, hd] at hs
    cases hs
  · intro t'' heq
    exact hc (Symbol.char.inj (List.cons.inj heq).1).symm

theorem ScalarText.starts {t : Document} (h : ScalarText t) : Starts t := (IsText.scalar h).starts

theorem NumberText.starts {t : Document} (h : NumberText t) : Starts t := (ScalarText.number h).starts

theorem numeric_of_readScalar {t : Document} (h : NumberText t) {v : Json}
    (hv : whole? readScalar t = some v) : Numeric v := by
  obtain ⟨⟨v, rest⟩, hread, rfl⟩ := Option.map_eq_some_iff.mp hv
  rw [Except.toOption_eq_some] at hread
  rcases h with hu | ⟨u, rfl, hu⟩
  · obtain ⟨s, t', rfl, hs⟩ := hu.exists_cons
    rw [readScalar_digit hs] at hread
    obtain ⟨-, -, -, hv⟩ := form_of_readNumber hread
    exact hv
  · obtain ⟨-, -, -, hv⟩ := form_of_readNumber hread
    exact hv

/-- The ways in which a value can be read from a text. -/
inductive ReadAs : (room : Nat) → Document → Json → Prop
  | null {room : Nat} : ReadAs room (.char 'n' :: ['u', 'l', 'l'].map .char) .null
  | yes {room : Nat} : ReadAs room (.char 't' :: ['r', 'u', 'e'].map .char) (.bool true)
  | no {room : Nat} : ReadAs room (.char 'f' :: ['a', 'l', 's', 'e'].map .char) (.bool false)
  | float {room : Nat} {t : Document} {x : Binary64} : NumberText t →
    whole? readScalar t = some (.float x) → ReadAs room t (.float x)
  | int {room : Nat} {t : Document} {n : Int} : NumberText t →
    whole? readScalar t = some (.int n) → Fits64 n → ReadAs room t (.int n)
  | text {room : Nat} {q : Document} {s : String} : Quoted q → whole? readText q = some s →
    ReadAs room (.char '"' :: q) (.string s)
  | array {room : Nat} {pad : Document} {items : List Item} {vs : List Json} : Blank pad →
    (∀ i ∈ items, IsText i.value) → items.mapM (fun i => whole? (readValue room) i.value) = some vs →
    ReadAs (room + 1) (arrayText pad items) (.array vs)
  | object {room : Nat} {pad : Document} {members : List Member} {ms : List (String × Json)} :
    Blank pad → (∀ m ∈ members, IsText m.value) →
    members.mapM (Member.pair? (readValue room)) = some ms →
    ReadAs (room + 1) (objectText pad members) (.object ms)

theorem IsText.readAs {t : Document} (h : IsText t) {room : Nat} {v : Json}
    (hv : whole? (readValue room) t = some v) : ReadAs room t v := by
  cases h with
  | scalar hs =>
    rw [(makes_scalar hs room).whole?_eq] at hv
    cases hs with
    | null => cases hv; exact .null
    | yes => cases hv; exact .yes
    | no => cases hv; exact .no
    | number hn =>
      rcases numeric_of_readScalar hn hv with ⟨x, rfl⟩ | ⟨n, rfl, hfits⟩
      · exact .float hn hv
      · exact .int hn hv hfits
    | text hq =>
      rw [whole?_readScalar_text hq] at hv
      obtain ⟨s, hs, rfl⟩ := Option.map_eq_some_iff.mp hv
      exact .text hq hs
  | array hp hi =>
    cases room with
    | zero =>
      rw [(makes_array_zero _ _).whole?_eq] at hv
      cases hv
    | succ room =>
      rw [whole?_array hp hi] at hv
      obtain ⟨vs, hvs, rfl⟩ := Option.map_eq_some_iff.mp hv
      exact .array hp hi hvs
  | object hp hm =>
    cases room with
    | zero =>
      rw [(makes_object_zero _ _).whole?_eq] at hv
      cases hv
    | succ room =>
      rw [whole?_object hp hm] at hv
      obtain ⟨ms, hms, rfl⟩ := Option.map_eq_some_iff.mp hv
      exact .object hp hm hms

theorem toOption_blameType {α : Type} (expected : String) (d : Document) :
    (blameType expected d : Except Failure α).toOption = none := by
  unfold blameType
  split
  · rfl
  · rfl
  · cases readScalar d <;> rfl

theorem toOption_conclude {α β : Type} (finish : α → Except Problem β) (v : α) (d : Document) :
    (conclude finish v d).toOption = (finish v).toOption.map (·, d) := by
  unfold conclude
  cases finish v <;> rfl

theorem blameType_ne_ok {α : Type} {expected : String} {d rest : Document} {v : α} :
    blameType expected d ≠ .ok (v, rest) := by
  intro h
  have hnone := toOption_blameType (α := α × Document) expected d
  rw [h] at hnone
  cases hnone

theorem conclude_eq_ok {α β : Type} {finish : α → Except Problem β} {v : α} {w : β} {d rest : Document}
    (h : conclude finish v d = .ok (w, rest)) : finish v = .ok w ∧ d = rest := by
  unfold conclude at h
  split at h
  · next heq =>
    obtain ⟨rfl, hrest⟩ := Prod.mk.inj (Except.ok.inj h)
    exact ⟨heq, hrest⟩
  · cases h

namespace Decoder

variable {α β : Type}

/-- The decoder takes only values. It makes of the text of a value the same in any document, and the
same as of the value that is read from the text. -/
structure Lawful (decoder : Decoder α) : Prop where
  takes (room : Nat) : Takes (decoder.live room)
  exact {t : Document} (h : IsText t) (room : Nat) : Exact (decoder.live room) t
  agrees {t : Document} (h : IsText t) {room : Nat} {v : Json}
    (hv : whole? (readValue room) t = some v) :
    whole? (decoder.live room) t = (decoder.kept v).toOption

/-! ## Texts -/

theorem makes_text {q : Document} (hq : Quoted q) (room : Nat) :
    Makes (text.live room) (.char '"' :: q) (whole? readText q) := by
  intro blank rest hb hr
  simp only [text]
  rw [(starts_cons rfl : Starts (Symbol.char '"' :: q)).skipSpace hb]
  exact readText_quoted hq rest

theorem makes_text_other {t : Document} (ht : Starts t) (h : HeadNe '"' t) (room : Nat) :
    Makes (text.live room) t none := by
  intro blank rest hb hr
  simp only [text]
  rw [ht.skipSpace hb]
  split
  · next heq => exact absurd heq (h.append ht rest _)
  · exact toOption_blameType _ _

theorem takes_text (room : Nat) : Takes (text.live room) := by
  intro d s rest h
  simp only [text] at h
  split at h
  · next hquote =>
    obtain ⟨q, rfl, hq⟩ := quoted_of_readText h
    refine HasValue.of_skipSpace ?_
    rw [hquote]
    exact hasValue_of_text (.scalar (.text hq)) rest
  · exact absurd h blameType_ne_ok

theorem lawful_text : text.Lawful where
  takes := takes_text
  exact {t} h room := by
    cases h with
    | scalar hs =>
      cases hs with
      | text hq => exact (makes_text hq room).exact
      | number hn => exact (makes_text_other hn.starts (hn.headNe (by decide) rfl) room).exact
      | _ => exact (makes_text_other (starts_cons rfl) (by nofun) room).exact
    | _ => exact (makes_text_other (starts_cons rfl) (by nofun) room).exact
  agrees {t} h {room v} hv := by
    cases h.readAs hv with
    | text hq hs => exact (makes_text hq room).whole?_eq.trans hs
    | float hn => exact (makes_text_other hn.starts (hn.headNe (by decide) rfl) room).whole?_eq
    | int hn => exact (makes_text_other hn.starts (hn.headNe (by decide) rfl) room).whole?_eq
    | _ => exact (makes_text_other (starts_cons rfl) (by nofun) _).whole?_eq

/-! ## Numbers -/

theorem startsNumber {t : Document} (h : NumberText t) (rest : Document) :
    (decide ((t ++ rest).head? = some (.char '-')) || startsWithDigit (t ++ rest)) = true := by
  rcases h with hu | ⟨u, rfl, hu⟩
  · obtain ⟨s, t', rfl, hs⟩ := hu.exists_cons
    have hdigit : startsWithDigit (s :: t' ++ rest) = true := hs
    rw [hdigit, Bool.or_true]
  · rfl

theorem makes_number {t : Document} (h : NumberText t) (room : Nat) : Makes (number.live room) t
    ((whole? readScalar t).bind fun v => (number.kept v).toOption) := by
  intro blank rest hb hr
  simp only [number]
  rw [h.starts.skipSpace hb, if_pos (startsNumber h rest), Except.toOption_bind,
    (ScalarText.number h).reads.eq hr]
  cases whole? readScalar t with
  | none => rfl
  | some v => cases v <;> rfl

theorem makes_number_other {s : Symbol} {t : Document} (hs : isDelimiter s = false)
    (hminus : s ≠ .char '-') (hdigit : isDigit s = false) (room : Nat) :
    Makes (number.live room) (s :: t) none := by
  intro blank rest hb hr
  have hguard : (decide ((s :: t ++ rest).head? = some (.char '-')) ||
      startsWithDigit (s :: t ++ rest)) = false := by
    have hstart : startsWithDigit (s :: t ++ rest) = false := hdigit
    rw [hstart, Bool.or_false]
    exact decide_eq_false fun h => hminus (Option.some.inj h)
  simp only [number]
  rw [(starts_cons hs : Starts (s :: t)).skipSpace hb, hguard]
  exact toOption_blameType _ _

theorem takes_number (room : Nat) : Takes (number.live room) := by
  intro d x rest h
  simp only [number] at h
  split at h
  · obtain ⟨⟨v, r⟩, hv, h⟩ := Except.bind_eq_ok.mp h
    have hvalue := (hasValue_of_readScalar hv).of_skipSpace
    cases v with
    | float | int => cases h; exact hvalue
    | _ => cases h
  · exact absurd h blameType_ne_ok

theorem lawful_number : number.Lawful where
  takes := takes_number
  exact {t} h room := by
    cases h with
    | scalar hs =>
      cases hs with
      | number hn => exact (makes_number hn room).exact
      | _ => exact (makes_number_other rfl (by decide) rfl room).exact
    | _ => exact (makes_number_other rfl (by decide) rfl room).exact
  agrees {t} h {room v} hv := by
    cases h.readAs hv with
    | float hn hx => rw [(makes_number hn room).whole?_eq, hx]; rfl
    | int hn hx => rw [(makes_number hn room).whole?_eq, hx]; rfl
    | _ => exact (makes_number_other rfl (by decide) rfl _).whole?_eq

/-! ## Truth values -/

theorem makes_boolean_yes (room : Nat) :
    Makes (boolean.live room) (.char 't' :: ['r', 'u', 'e'].map .char) (some true) := by
  intro blank rest hb hr
  simp only [boolean]
  rw [(ScalarText.yes.starts).skipSpace hb]
  rfl

theorem makes_boolean_no (room : Nat) :
    Makes (boolean.live room) (.char 'f' :: ['a', 'l', 's', 'e'].map .char) (some false) := by
  intro blank rest hb hr
  simp only [boolean]
  rw [(ScalarText.no.starts).skipSpace hb]
  rfl

theorem makes_boolean_other {t : Document} (ht : Starts t) (htrue : HeadNe 't' t)
    (hfalse : HeadNe 'f' t) (room : Nat) : Makes (boolean.live room) t none := by
  intro blank rest hb hr
  simp only [boolean]
  rw [ht.skipSpace hb]
  split
  · next heq => exact absurd heq (htrue.append ht rest _)
  · next heq => exact absurd heq (hfalse.append ht rest _)
  · exact toOption_blameType _ _

theorem takes_boolean (room : Nat) : Takes (boolean.live room) := by
  intro d b rest h
  simp only [boolean] at h
  split at h
  · next hyes =>
    obtain ⟨r, hword, h⟩ := Except.bind_eq_ok.mp h
    cases h
    refine HasValue.of_skipSpace ?_
    rw [hyes, form_of_readWord hword]
    exact hasValue_of_text (.scalar .yes) rest
  · next hno =>
    obtain ⟨r, hword, h⟩ := Except.bind_eq_ok.mp h
    cases h
    refine HasValue.of_skipSpace ?_
    rw [hno, form_of_readWord hword]
    exact hasValue_of_text (.scalar .no) rest
  · exact absurd h blameType_ne_ok

theorem lawful_boolean : boolean.Lawful where
  takes := takes_boolean
  exact {t} h room := by
    cases h with
    | scalar hs =>
      cases hs with
      | yes => exact (makes_boolean_yes room).exact
      | no => exact (makes_boolean_no room).exact
      | number hn => exact (makes_boolean_other hn.starts (hn.headNe (by decide) rfl)
          (hn.headNe (by decide) rfl) room).exact
      | _ => exact (makes_boolean_other (starts_cons rfl) (by nofun) (by nofun) room).exact
    | _ => exact (makes_boolean_other (starts_cons rfl) (by nofun) (by nofun) room).exact
  agrees {t} h {room v} hv := by
    cases h.readAs hv with
    | yes => exact (makes_boolean_yes room).whole?_eq
    | no => exact (makes_boolean_no room).whole?_eq
    | float hn => exact (makes_boolean_other hn.starts (hn.headNe (by decide) rfl)
        (hn.headNe (by decide) rfl) room).whole?_eq
    | int hn => exact (makes_boolean_other hn.starts (hn.headNe (by decide) rfl)
        (hn.headNe (by decide) rfl) room).whole?_eq
    | _ => exact (makes_boolean_other (starts_cons rfl) (by nofun) (by nofun) _).whole?_eq

/-! ## Any value -/

theorem lawful_json : json.Lawful where
  takes := fun room => (takes_readValue room).map canonical
  exact {t} h room := by
    have hread := (h.exact_value room).map Json.canonical
    exact hread.exact
  agrees {t} h {room v} hv := by
    have hread := (h.exact_value room).map Json.canonical
    refine hread.whole?_eq.trans ?_
    rw [hv]
    rfl

/-! ## Values that may be missing -/

theorem makes_option_null (inner : Decoder α) (room : Nat) :
    Makes ((option inner).live room) (.char 'n' :: ['u', 'l', 'l'].map .char) (some none) := by
  intro blank rest hb hr
  simp only [option]
  rw [(ScalarText.null.starts).skipSpace hb]
  rfl

theorem makes_option_other {inner : Decoder α} {t : Document} (ht : Starts t) (hn : HeadNe 'n' t)
    {room : Nat} {x : Option α} (h : Makes (inner.live room) t x) :
    Makes ((option inner).live room) t (x.map some) := by
  intro blank rest hb hr
  simp only [option]
  rw [ht.skipSpace hb]
  split
  · next heq => exact absurd heq (hn.append ht rest _)
  · exact h.map some [] rest blank_nil hr

theorem takes_option {inner : Decoder α} {room : Nat} (h : Takes (inner.live room)) :
    Takes ((option inner).live room) := by
  intro d o rest hread
  simp only [option] at hread
  split at hread
  · next hnull =>
    obtain ⟨r, hword, hread⟩ := Except.bind_eq_ok.mp hread
    cases hread
    refine HasValue.of_skipSpace ?_
    rw [hnull, form_of_readWord hword]
    exact hasValue_of_text (.scalar .null) rest
  · exact (h.map some hread).of_skipSpace

theorem lawful_option {inner : Decoder α} (hinner : inner.Lawful) : (option inner).Lawful where
  takes := fun room => takes_option (hinner.takes room)
  exact {t} h room := by
    have ht := h.starts
    have hexact := hinner.exact h room
    cases h with
    | scalar hs =>
      cases hs with
      | null => exact (makes_option_null inner room).exact
      | number hn => exact (makes_option_other ht (hn.headNe (by decide) rfl) hexact).exact
      | _ => exact (makes_option_other ht (by nofun) hexact).exact
    | _ => exact (makes_option_other ht (by nofun) hexact).exact
  agrees {t} h {room v} hv := by
    have ht := h.starts
    have hexact := hinner.exact h room
    have hagrees := hinner.agrees h hv
    have hsome (hn : HeadNe 'n' t) : whole? ((option inner).live room) t =
        ((inner.kept v).map some).toOption := by
      rw [(makes_option_other ht hn hexact).whole?_eq, hagrees, Except.toOption_map]
    cases h.readAs hv with
    | null => exact (makes_option_null inner room).whole?_eq
    | float hn => exact hsome (hn.headNe (by decide) rfl)
    | int hn => exact hsome (hn.headNe (by decide) rfl)
    | _ => exact hsome (by nofun)

/-! ## Values that are checked -/

theorem makes_refine {inner : Decoder α} {check : α → Except Problem β} {t : Document} {room : Nat}
    {x : Option α} (h : Makes (inner.live room) t x) :
    Makes ((inner.refine check).live room) t (x.bind fun v => (check v).toOption) := by
  intro blank rest hb hr
  simp only [refine]
  rw [Except.toOption_bind, h blank rest hb hr]
  cases x with
  | none => rfl
  | some v => exact toOption_conclude check v rest

theorem takes_refine {inner : Decoder α} {room : Nat} (hinner : Takes (inner.live room))
    (check : α → Except Problem β) : Takes ((inner.refine check).live room) := by
  intro d b rest h
  obtain ⟨⟨a, r⟩, ha, hb⟩ := Except.bind_eq_ok.mp h
  exact (conclude_eq_ok hb).2 ▸ hinner ha

theorem lawful_refine {inner : Decoder α} (hinner : inner.Lawful) (check : α → Except Problem β) :
    (inner.refine check).Lawful where
  takes := fun room => takes_refine (hinner.takes room) check
  exact {_} h room := (makes_refine (hinner.exact h room)).exact
  agrees {_} h {room v} hv := by
    rw [(makes_refine (hinner.exact h room)).whole?_eq, hinner.agrees h hv]
    show _ = (inner.kept v >>= check).toOption
    rw [Except.toOption_bind]

/-! ## Arrays -/

section
variable {inner : Decoder α} {room : Nat} {pad : Document} {items : List Item}

theorem list_openArray {d d' : Document} (h : skipSpace d = .char '[' :: d') :
    (list inner).live (room + 1) d = (readArray (fun items d => do
        let (v, d) ← inner.live room d
        return (v :: items, d)) [] d').map fun p => (p.1.reverse, p.2) := by
  simp only [list]
  rw [h]
  rfl

theorem makes_list (hinner : ∀ i ∈ items, Exact (inner.live room) i.value)
    (hstart : ∀ i ∈ items, Starts i.value) (hp : Blank pad) :
    Makes ((list inner).live (room + 1)) (arrayText pad items)
      (items.mapM fun i => whole? (inner.live room) i.value) := by
  intro blank rest hb hr
  have hread := toOption_readArray hstart (fun i hi acc => (hinner i hi).map (· :: acc)) [] hp rest
  rw [foldlM_push] at hread
  rw [list_openArray (skipSpace_array hb pad items rest), Except.toOption_map, hread]
  simp only [Option.map_map, Function.comp_def, List.reverse_reverse]

theorem makes_list_zero (pad : Document) (items : List Item) :
    Makes ((list inner).live 0) (arrayText pad items) none := by
  intro blank rest hb hr
  simp only [list]
  rw [skipSpace_array hb]
  rfl

theorem makes_list_other {t : Document} (ht : Starts t) (h : HeadNe '[' t) :
    Makes ((list inner).live room) t none := by
  intro blank rest hb hr
  simp only [list]
  rw [ht.skipSpace hb]
  split
  · next heq => exact absurd heq (h.append ht rest _)
  · exact toOption_blameType _ _

theorem takes_list (hinner : ∀ room, Takes (inner.live room)) (room : Nat) :
    Takes ((list inner).live room) := by
  intro d l rest h
  have hread := h
  simp only [list] at hread
  split at hread
  · next hopen =>
    cases room with
    | zero => cases hread
    | succ room =>
      rw [list_openArray hopen] at h
      obtain ⟨⟨items, r⟩, hitems, hl⟩ := Except.map_eq_ok.mp h
      cases hl
      exact hasValue_of_readArray (fun items => (hinner room).map (· :: items)) hopen hitems
  · exact absurd hread blameType_ne_ok

theorem lawful_list (hinner : inner.Lawful) : (list inner).Lawful where
  takes := takes_list hinner.takes
  exact {t} h room := by
    cases h with
    | scalar hs =>
      cases hs with
      | number hn => exact (makes_list_other hn.starts (hn.headNe (by decide) rfl)).exact
      | _ => exact (makes_list_other (starts_cons rfl) (by nofun)).exact
    | array hp hi =>
      cases room with
      | zero => exact (makes_list_zero _ _).exact
      | succ room =>
        exact (makes_list (fun i h => hinner.exact (hi i h) room) (fun i h => (hi i h).starts) hp).exact
    | object => exact (makes_list_other (starts_cons rfl) (by nofun)).exact
  agrees {t} h {room v} hv := by
    cases h.readAs hv with
    | @array room pad items vs hp hi hvs =>
      rw [(makes_list (fun i h => hinner.exact (hi i h) room) (fun i h => (hi i h).starts) hp).whole?_eq]
      show _ = (vs.mapM inner.kept).toOption
      rw [toOption_mapM]
      exact mapM_congr (mapM_eq_some_iff.mp hvs) fun i h v hv => hinner.agrees (hi i h) hv
    | float hn => exact (makes_list_other hn.starts (hn.headNe (by decide) rfl)).whole?_eq
    | int hn => exact (makes_list_other hn.starts (hn.headNe (by decide) rfl)).whole?_eq
    | _ => exact (makes_list_other (starts_cons rfl) (by nofun)).whole?_eq

end

/-! ## Objects with any names -/

section
variable {inner : Decoder α} {room : Nat} {pad : Document} {members : List Member}

/-- An entry is added to a dictionary. -/
def addEntry (entries : Dict α) (e : String × α) : Dict α := entries.insert e.1 e.2

theorem dict_openObject {d d' : Document} (h : skipSpace d = .char '\x7b' :: d') :
    (dict inner).live (room + 1) d = readObject (fun entries name d => do
        let (v, d) ← inner.live room (← readColon d)
        return (addEntry entries (name, v), d)) [] d' := by
  simp only [dict]
  rw [h]
  rfl

theorem makes_dict (hinner : ∀ m ∈ members, Exact (inner.live room) m.value) (hp : Blank pad) :
    Makes ((dict inner).live (room + 1)) (objectText pad members)
      (members.foldlM (fun entries m => (m.pair? (inner.live room)).map (addEntry entries)) []) := by
  intro blank rest hb hr
  have hread := toOption_readObject (fun m hm entries name =>
    .of_value (hinner m hm) (fun v => addEntry entries (name, v))) [] hp rest
  have hstep : memberStep (fun entries name m => (whole? (inner.live room) m.value).map
      fun v => addEntry entries (name, v)) =
      fun entries m => (m.pair? (inner.live room)).map (addEntry entries) := by
    funext entries m
    simp only [memberStep, Member.pair?]
    cases m.name? <;> simp [Function.comp_def]
  rw [hstep] at hread
  rw [dict_openObject (skipSpace_object hb pad members rest)]
  exact hread

theorem makes_dict_zero (pad : Document) (members : List Member) :
    Makes ((dict inner).live 0) (objectText pad members) none := by
  intro blank rest hb hr
  simp only [dict]
  rw [skipSpace_object hb]
  rfl

theorem makes_dict_other {t : Document} (ht : Starts t) (h : HeadNe '\x7b' t) :
    Makes ((dict inner).live room) t none := by
  intro blank rest hb hr
  simp only [dict]
  rw [ht.skipSpace hb]
  split
  · next heq => exact absurd heq (h.append ht rest _)
  · exact toOption_blameType _ _

theorem takes_dict (hinner : ∀ room, Takes (inner.live room)) (room : Nat) :
    Takes ((dict inner).live room) := by
  intro d entries rest h
  simp only [dict] at h
  split at h
  · next hopen =>
    cases room with
    | zero => cases h
    | succ room =>
      exact hasValue_of_readObject
        (fun entries name => (hinner room).member fun v => Dict.insert entries name v) hopen h
  · exact absurd h blameType_ne_ok

theorem lawful_dict (hinner : inner.Lawful) : (dict inner).Lawful where
  takes := takes_dict hinner.takes
  exact {t} h room := by
    cases h with
    | scalar hs =>
      cases hs with
      | number hn => exact (makes_dict_other hn.starts (hn.headNe (by decide) rfl)).exact
      | _ => exact (makes_dict_other (starts_cons rfl) (by nofun)).exact
    | array => exact (makes_dict_other (starts_cons rfl) (by nofun)).exact
    | object hp hm =>
      cases room with
      | zero => exact (makes_dict_zero _ _).exact
      | succ room => exact (makes_dict (fun m h => hinner.exact (hm m h) room) hp).exact
  agrees {t} h {room v} hv := by
    cases h.readAs hv with
    | @object room pad members ms hp hm hms =>
      rw [(makes_dict (fun m h => hinner.exact (hm m h) room) hp).whole?_eq]
      show _ = (ms.foldlM (fun (entries : Dict α) (m : String × Json) => do
        return entries.insert m.1 (← inner.kept m.2)) []).toOption
      rw [toOption_foldlM]
      refine foldlM_congr (mapM_eq_some_iff.mp hms) (fun m h p hp entries => ?_) []
      obtain ⟨hname, hvalue⟩ := Member.pair?_eq_some.mp hp
      rw [Member.pair?, hname, Option.bind_some, hinner.agrees (hm m h) hvalue]
      cases inner.kept p.2 <;> rfl
    | float hn => exact (makes_dict_other hn.starts (hn.headNe (by decide) rfl)).whole?_eq
    | int hn => exact (makes_dict_other hn.starts (hn.headNe (by decide) rfl)).whole?_eq
    | _ => exact (makes_dict_other (starts_cons rfl) (by nofun)).whole?_eq

end

/-! ## Whole documents -/

theorem expectEnd_eq_ok {d : Document} : expectEnd d = .ok () ↔ Blank d := by
  constructor
  · intro h
    unfold expectEnd at h
    split at h
    · next heq => exact List.dropWhile_eq_nil_iff.mp heq
    · cases h
  · intro h
    rw [expectEnd, skipSpace_blank h]

theorem parse_eq_ok {decoder : Decoder α} {d : Document} {a : α} : decoder.parse d = .ok a ↔
    ∃ rest, decoder.live maxNesting d = .ok (a, rest) ∧ Blank rest := by
  rw [parse, Except.mapError_eq_ok, Except.bind_eq_ok]
  constructor
  · rintro ⟨⟨v, rest⟩, hread, h⟩
    obtain ⟨u, hend, h⟩ := Except.bind_eq_ok.mp h
    cases h
    exact ⟨rest, hread, expectEnd_eq_ok.mp hend⟩
  · rintro ⟨rest, hread, hb⟩
    refine ⟨(a, rest), hread, ?_⟩
    show (expectEnd rest >>= fun _ => pure a) = _
    rw [expectEnd_eq_ok.mpr hb]
    rfl

/-- Of a text in a document, with nothing but blanks around it, the same is decoded as of the text
alone. -/
theorem Lawful.parse_eq_ok {decoder : Decoder α} (h : decoder.Lawful) {t : Document} (ht : IsText t)
    {before after : Document} (hb : Blank before) (ha : Blank after) {a : α} :
    decoder.parse (before ++ t ++ after) = .ok a ↔ whole? (decoder.live maxNesting) t = some a := by
  rw [Decoder.parse_eq_ok]
  simp only [(h.exact ht maxNesting).eq_ok_iff hb ha.ends]
  constructor
  · rintro ⟨rest, ⟨hwhole, -⟩, -⟩
    exact hwhole
  · exact fun hwhole => ⟨after, ⟨hwhole, rfl⟩, ha⟩

/-- A document that is decoded is the text of a value with blanks around it. -/
theorem Lawful.exists_text {decoder : Decoder α} (hlawful : decoder.Lawful) {d : Document} {a : α}
    (h : decoder.parse d = .ok a) :
    ∃ before t after, Blank before ∧ IsText t ∧ Blank after ∧ d = before ++ t ++ after := by
  obtain ⟨after, hread, ha⟩ := Decoder.parse_eq_ok.mp h
  obtain ⟨before, t, hb, ht, hd⟩ := hlawful.takes maxNesting hread
  exact ⟨before, t, after, hb, ht, ha, hd⟩

end Decoder

end MicroFrontends.Json
