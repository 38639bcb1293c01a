import MicroFrontends.Settings.Yaml.Cursor
import MicroFrontends.Text.Digits

/-!
# Texts of YAML scalars

* `Yaml.readSingle`, `Yaml.readDouble` : quoted texts, after the opening quote;
* `Yaml.readPlain` : texts without quotes.

All of them go on over line breaks, of which a single one stands for a blank, and more of them for
one line break less.
-/

namespace MicroFrontends.Yaml

/-- A text and the place after it. -/
abbrev Scanned := Option (List Char × Cursor)

/-- The text with some characters put before it. -/
def Scanned.prepend (before : List Char) (s : Scanned) : Scanned :=
  s.map fun (text, c) => (before ++ text, c)

/-! ## Gaps -/

/-- White space inside a text. -/
structure Gap where
  /-- The white space before the first line break. -/
  blanks : List Char
  /-- The number of line breaks, without those that end comments. -/
  breaks : Nat
  /-- The place of what follows. -/
  next : Cursor

namespace Gap

/-- What the white space stands for. -/
def text (g : Gap) : List Char :=
  match g.breaks with
  | 0 => g.blanks
  | 1 => [' ']
  | n + 2 => List.replicate (n + 1) '\n'

/-- Where the reading goes on after a tab that would indent a line by less than `indent`. In a plain
text it does if nothing but a comment is left of the line. The break that ends a comment does not
count. -/
def afterTab? (isPlain : Bool) (c : Cursor) : Option Cursor :=
  if isPlain then
    (c.skipBlanks?.filter Cursor.isAtBreak).map fun d => if d.isLeading then d else d.step
  else none

theorem length_afterTab_lt {isPlain : Bool} {c d : Cursor} {cs : List Char}
    (hc : c.rest = '\t' :: cs) (h : afterTab? isPlain c = some d) :
    d.rest.length < c.rest.length := by
  have hs : (c.skipWhile isBlank).rest.length < c.rest.length := by
    unfold Cursor.skipWhile Cursor.read
    rw [Cursor.rest_skip, hc, List.takeWhile_cons, if_pos (by decide)]
    simp only [List.length_drop, List.length_cons]
    omega
  unfold afterTab? at h
  split at h
  · obtain ⟨e, he, rfl⟩ := Option.map_eq_some_iff.1 h
    refine Nat.lt_of_le_of_lt (m := e.rest.length) ?_ ?_
    · split
      · exact Nat.le_refl _
      · exact Cursor.length_step_le
    have he := (Option.filter_eq_some_iff.1 he).1
    unfold Cursor.skipBlanks? at he
    dsimp only at he
    split at he
    · split at he
      · cases he
      · cases he
        exact Nat.lt_of_le_of_lt (Cursor.length_skip_le _ _) hs
    · cases he
      exact hs
  · cases h

/-- The white space that comes next, in a text whose lines are indented by `indent`. -/
def read (isPlain : Bool) (indent : Int) (c : Cursor) : Option Gap :=
  match _h : c.rest with
  | [] => some ⟨[], 0, c⟩
  | '\n' :: _ => (read isPlain indent c.step).map fun g => ⟨[], g.breaks + 1, g.next⟩
  | '\t' :: _ =>
    if c.isLeading then
      if c.column < indent then
        match _d : afterTab? isPlain c with
        | some d => read isPlain indent d
        | none => none
      else read isPlain indent c.step
    else (read isPlain indent c.step).map fun g => ⟨'\t' :: g.blanks, g.breaks, g.next⟩
  | ' ' :: _ =>
    if c.isLeading then read isPlain indent c.step
    else (read isPlain indent c.step).map fun g => ⟨' ' :: g.blanks, g.breaks, g.next⟩
  | _ => some ⟨[], 0, c⟩
termination_by c.rest.length
decreasing_by
  · exact Cursor.length_step_lt _h
  · exact length_afterTab_lt _h _d
  all_goals exact Cursor.length_step_lt _h

theorem length_next_le {isPlain : Bool} {indent : Int} {c : Cursor} :
    ∀ {g : Gap}, read isPlain indent c = some g → g.next.rest.length ≤ c.rest.length := by
  fun_induction read isPlain indent c with
  | case1 c _ => intro g h; cases h; exact Nat.le_refl _
  | case2 c _ hc ih =>
    intro g h
    obtain ⟨g', hg, rfl⟩ := Option.map_eq_some_iff.1 h
    exact Nat.le_trans (ih (g := g') hg) (Nat.le_of_lt (Cursor.length_step_lt hc))
  | case3 c _ hc _ _ d hd ih =>
    intro g h
    exact Nat.le_trans (ih h) (Nat.le_of_lt (length_afterTab_lt hc hd))
  | case4 => intro g h; cases h
  | case5 c _ hc _ _ ih =>
    intro g h
    exact Nat.le_trans (ih h) (Nat.le_of_lt (Cursor.length_step_lt hc))
  | case6 c _ hc _ ih =>
    intro g h
    obtain ⟨g', hg, rfl⟩ := Option.map_eq_some_iff.1 h
    exact Nat.le_trans (ih (g := g') hg) (Nat.le_of_lt (Cursor.length_step_lt hc))
  | case7 c _ hc _ ih =>
    intro g h
    exact Nat.le_trans (ih h) (Nat.le_of_lt (Cursor.length_step_lt hc))
  | case8 c _ hc _ ih =>
    intro g h
    obtain ⟨g', hg, rfl⟩ := Option.map_eq_some_iff.1 h
    exact Nat.le_trans (ih (g := g') hg) (Nat.le_of_lt (Cursor.length_step_lt hc))
  | case9 => intro g h; cases h; exact Nat.le_refl _

/-- What comes next is shorter if white space comes first. -/
theorem length_next_lt {isPlain : Bool} {indent : Int} {c : Cursor} {g : Gap} {x : Char}
    {cs : List Char} (hc : c.rest = x :: cs) (hx : isSpace x = true)
    (h : read isPlain indent c = some g) : g.next.rest.length < c.rest.length := by
  have step := Cursor.length_step_lt hc
  unfold read at h
  split at h
  · next hn => rw [hn] at hc; cases hc
  · obtain ⟨g', hg, rfl⟩ := Option.map_eq_some_iff.1 h
    exact Nat.lt_of_le_of_lt (length_next_le (g := g') hg) step
  · next ht =>
    split at h
    · split at h
      · split at h
        · next hd => exact Nat.lt_of_le_of_lt (length_next_le h) (length_afterTab_lt ht hd)
        · cases h
      · exact Nat.lt_of_le_of_lt (length_next_le h) step
    · obtain ⟨g', hg, rfl⟩ := Option.map_eq_some_iff.1 h
      exact Nat.lt_of_le_of_lt (length_next_le (g := g') hg) step
  · split at h
    · exact Nat.lt_of_le_of_lt (length_next_le h) step
    · obtain ⟨g', hg, rfl⟩ := Option.map_eq_some_iff.1 h
      exact Nat.lt_of_le_of_lt (length_next_le (g := g') hg) step
  · next hn ht hs =>
    exfalso
    rw [hc] at hn ht hs
    simp only [isSpace, isBlank, Bool.or_eq_true, decide_eq_true_eq] at hx
    rcases hx with (rfl | rfl) | rfl
    · exact hs _ rfl
    · exact ht _ rfl
    · exact hn _ rfl

end Gap

/-! ## Quoted texts -/

/-- A quoted text can go on at a place after white space. -/
def continuesQuoted (indent : Int) (c : Cursor) : Bool :=
  !c.isAtDocumentMark && indent ≤ c.column

/-- The white space inside a quoted text. -/
def quotedGap? (indent : Int) (c : Cursor) : Option Gap :=
  (Gap.read false indent c).filter fun g => continuesQuoted indent g.next

theorem length_quotedGap_le {indent : Int} {c : Cursor} {g : Gap}
    (h : quotedGap? indent c = some g) : g.next.rest.length ≤ c.rest.length :=
  Gap.length_next_le (Option.filter_eq_some_iff.1 h).1

theorem length_quotedGap_lt {indent : Int} {c : Cursor} {g : Gap} {x : Char} {cs : List Char}
    (hc : c.rest = x :: cs) (hx : isSpace x = true) (h : quotedGap? indent c = some g) :
    g.next.rest.length < c.rest.length :=
  Gap.length_next_lt hc hx (Option.filter_eq_some_iff.1 h).1

/-- Reads a text in single quotes, after the first of them. A quote is written twice. -/
def readSingle (indent : Int) (c : Cursor) : Scanned :=
  match _h : c.rest with
  | [] => none
  | '\'' :: '\'' :: _ => (readSingle indent (c.skip 2)).prepend ['\'']
  | '\'' :: _ => some ([], c.step)
  | x :: _ =>
    if _hx : isSpace x then
      match _g : quotedGap? indent c with
      | some g => (readSingle indent g.next).prepend g.text
      | none => none
    else (readSingle indent c.step).prepend [x]
termination_by c.rest.length
decreasing_by
  · rw [Cursor.rest_skip, _h]
    simp only [List.length_drop, List.length_cons]
    omega
  · exact length_quotedGap_lt _h _hx _g
  · exact Cursor.length_step_lt _h

/-- The character that a letter after a backslash stands for. -/
def escape? : Char → Option Char
  | '0' => some '\x00'
  | 'a' => some '\x07'
  | 'b' => some '\x08'
  | 't' => some '\t'
  | '\t' => some '\t'
  | 'n' => some '\n'
  | 'v' => some '\x0b'
  | 'f' => some '\x0c'
  | 'r' => some '\r'
  | 'e' => some '\x1b'
  | ' ' => some ' '
  | '"' => some '"'
  | '/' => some '/'
  | '\\' => some '\\'
  | 'N' => some '\u0085'
  | '_' => some '\u00a0'
  | 'L' => some '\u2028'
  | 'P' => some '\u2029'
  | _ => none

/-- How many digits a code point has after a letter. -/
def codePointDigits? : Char → Option Nat
  | 'x' => some 2
  | 'u' => some 4
  | 'U' => some 8
  | _ => none

/-- The character with a code point in hexadecimal digits. -/
def ofCodePoint? (digits : List Char) : Option Char :=
  (Text.nat? 16 digits).bind fun n => if n.isValidChar then some (.ofNat n) else none

/-- The character that is meant after a backslash, and how many characters tell so. -/
def readEscape? : List Char → Option (Char × Nat)
  | [] => none
  | x :: cs =>
    match escape? x with
    | some e => some (e, 1)
    | none => do
      let n ← codePointDigits? x
      if n ≤ cs.length then return (← ofCodePoint? (cs.take n), n + 1) else none

/-- Reads a text in double quotes, after the first of them. Where a line break is escaped no blank
takes its place, and those that follow it are kept. -/
def readDouble (indent : Int) (c : Cursor) : Scanned :=
  match _h : c.rest with
  | [] => none
  | '"' :: _ => some ([], c.step)
  | '\\' :: '\n' :: '"' :: _ => some ([], c.skip 3)
  | '\\' :: '\n' :: _ =>
    match _g : quotedGap? indent (c.skip 2) with
    | some g => (readDouble indent g.next).prepend (List.replicate g.breaks '\n')
    | none => none
  | '\\' :: cs =>
    match readEscape? cs with
    | some (e, n) => (readDouble indent (c.skip (n + 1))).prepend [e]
    | none => none
  | x :: _ =>
    if _hx : isSpace x then
      match _g : quotedGap? indent c with
      | some g => (readDouble indent g.next).prepend g.text
      | none => none
    else (readDouble indent c.step).prepend [x]
termination_by c.rest.length
decreasing_by
  · have := length_quotedGap_le _g
    rw [Cursor.rest_skip, _h] at this
    rw [_h]
    simp only [List.length_drop, List.length_cons] at this ⊢
    omega
  · rw [Cursor.rest_skip, _h]
    simp only [List.length_drop, List.length_cons]
    omega
  · exact length_quotedGap_lt _h _hx _g
  · exact Cursor.length_step_lt _h

/-! ## Plain texts -/

/-- A plain text cannot go on with what comes next, which is no white space. -/
def endsPlain (inFlow : Bool) : List Char → Bool
  | [] => true
  | x :: cs =>
    (x = ':' && (startsWithSpace cs || (inFlow && startsWithFlowMark cs))) ||
      (inFlow && isFlowMark x)

/-- The number of characters of the word that comes next in a plain text. -/
def wordLength (inFlow : Bool) : List Char → Nat
  | [] => 0
  | x :: cs =>
    if isSpace x || endsPlain inFlow (x :: cs) then 0 else wordLength inFlow cs + 1

/-- A dash between brackets that nothing is attached to. -/
def isLoneDash (inFlow : Bool) (cs : List Char) : Bool :=
  inFlow && cs.head? = some '-' && startsWithFlowMark cs.tail

/-- A word and what follows it, set off by white space if there is anything. -/
def joinWords (word : List Char) (g : Gap) (rest : List Char) : List Char :=
  if rest = [] then word else word ++ g.text ++ rest

/-- Reads a text without quotes, whose lines are indented by `indent`, and the white space after
it. -/
def readPlain (inFlow : Bool) (indent : Int) (c : Cursor) : Scanned :=
  if c.isAtDocumentMark || c.rest.head? = some '#' then some ([], c)
  else if isLoneDash inFlow c.rest then none
  else
    let n := wordLength inFlow c.rest
    let word := c.rest.take n
    let d := c.skip n
    match _h : d.rest with
    | [] => some (word, d)
    | x :: _ =>
      if _hx : isSpace x then
        match _g : Gap.read true indent d with
        | some g =>
          if !inFlow && g.next.column < indent then some (word, g.next)
          else (readPlain inFlow indent g.next).map fun (rest, e) => (joinWords word g rest, e)
        | none => none
      else some (word, d)
termination_by c.rest.length
decreasing_by
  exact Nat.lt_of_lt_of_le (Gap.length_next_lt _h _hx _g) (Cursor.length_skip_le _ _)

end MicroFrontends.Yaml
