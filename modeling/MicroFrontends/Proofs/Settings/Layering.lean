import Mathlib.Data.List.TakeWhile
import Mathlib.Tactic.SplitIfs
import MicroFrontends.Program
import MicroFrontends.Proofs.Dict
import MicroFrontends.Proofs.Runs
import MicroFrontends.Proofs.Steps

/-!
# Which source decides about a setting

A later source goes before an earlier one, setting by setting. Only where an earlier one gives a
table or a list, a later one may change no more than a part of it.

* `Layer.concerns`, `Layer.settles` : a source says something about a key, and it gives it a value
  that takes in nothing of what was said before;
* `Layer.deciding` : the sources that count for a key, as a rule the last one that concerns it
  (`Layer.deciding_eq_singleton`);
* `Merged.get?_deciding` : the value of a key is what these sources make it;
* `FileChoice.sources_cases` : the sources that file names choose, of which a reset drops all that
  were named before it;
* `Program.readSettings_deciding` : so each setting is decided by the chosen sources that count for
  its key.
-/

namespace MicroFrontends

/-- The value is a table or a list. -/
def hasParts : Json → Bool
  | .object _ | .array _ => true
  | _ => false

/-- There is a table or a list that a later source may change in part. -/
def Placed.isOpen (below : Option Placed) : Bool := below.any fun p => hasParts p.value

namespace Layer

/-- The source has an entry for the key, or for a part of its value. -/
def concerns (key : String) (l : Layer) : Bool :=
  l.entries.any fun e => (KeyPath.ofText e.1).root = key

/-- The source gives the key a value as a whole, which is no table. -/
def settles (key : String) (l : Layer) : Bool :=
  l.entries.any fun e => KeyPath.ofText e.1 = ⟨key, []⟩ && !isTable e.2

/-- The sources that count for a key with one more source. If that one concerns the key it counts
alone, unless it may change no more than a part of what the others make the key. -/
def count (key : String) (chosen : List Layer) (l : Layer) : List Layer :=
  if l.concerns key = false then chosen
  else if l.settles key || !Placed.isOpen ((Merged.ofLayers chosen).get? key) then [l]
  else chosen ++ [l]

/-- The sources that count for a key. -/
def deciding (key : String) (layers : List Layer) : List Layer := layers.foldl (count key) []

/-! ## One source -/

/-- What an entry makes of the value of a key. -/
def putFor (key : String) (origin : Option String) (below : Option Placed) (e : String × Json) :
    Option Placed :=
  if (KeyPath.ofText e.1).root = key then
    some (.putAt origin e.2 (KeyPath.ofText e.1).steps below)
  else below

/-- What a source makes of the value of a key. -/
def valueOver (key : String) (below : Option Placed) (l : Layer) : Option Placed :=
  l.entries.foldl (putFor key l.origin) below

variable {key : String} {l : Layer}

theorem valueOver_of_not_concerns (h : l.concerns key = false) (below : Option Placed) :
    l.valueOver key below = below := by
  have hroots := List.any_eq_false.mp h
  unfold valueOver
  generalize l.entries = entries at hroots
  induction entries with
  | nil => rfl
  | cons e entries ih =>
    have hroot : (KeyPath.ofText e.1).root ≠ key := by simpa using hroots e List.mem_cons_self
    have he : putFor key l.origin below e = below := if_neg hroot
    rw [List.foldl_cons, he]
    exact ih fun e' he' => hroots e' (List.mem_cons_of_mem e he')

/-- A value that is no table takes in nothing of what it lies over. -/
theorem putAt_nil {v : Json} (h : isTable v = false) (origin : Option String)
    (below : Option Placed) : Placed.putAt origin v [] below = ⟨v, origin⟩ := by
  have hv : KeyPath.putAt v [] (below.map Placed.value) = v := by
    cases v with
    | object members => cases h
    | _ => rfl
  rw [Placed.putAt, hv, h]
  rfl

theorem valueOver_of_settles (h : l.settles key = true) (below : Option Placed) :
    l.valueOver key below = l.valueOver key none := by
  obtain ⟨e, he, hsettles⟩ := List.any_eq_true.mp h
  obtain ⟨hpath, htable⟩ := Bool.and_eq_true_iff.mp hsettles
  have hpath := of_decide_eq_true hpath
  have htable : isTable e.2 = false := by simpa using htable
  obtain ⟨before, after, hentries⟩ := List.append_of_mem he
  have hput (b : Option Placed) : putFor key l.origin b e = some ⟨e.2, l.origin⟩ := by
    rw [putFor, hpath, if_pos rfl, putAt_nil htable]
  unfold valueOver
  rw [hentries, List.foldl_append, List.foldl_append, List.foldl_cons, List.foldl_cons, hput, hput]

/-- Of a value without parts nothing stays where something is put over it. -/
theorem putAt_of_not_hasParts {p : Placed} (h : hasParts p.value = false) (origin : Option String)
    (v : Json) (steps : List KeyStep) :
    Placed.putAt origin v steps (some p) = .putAt origin v steps none := by
  obtain ⟨below, file?⟩ := p
  have hentries : entriesOf (some below) = [] := by cases below <;> first | rfl | cases h
  have hitems : itemsOf (some below) = [] := by cases below <;> first | rfl | cases h
  have hlist : Placed.listOrigin? (some ⟨below, file?⟩) = none := by
    cases below <;> first | rfl | cases h
  have hvalue : KeyPath.putAt v steps (some below) = KeyPath.putAt v steps none := by
    cases steps with
    | nil =>
      cases v with
      | object members => exact congrArg (fun b => Json.object (overlayMembers b members)) hentries
      | _ => rfl
    | cons step steps =>
      cases step with
      | entry name => rw [KeyPath.putAt, KeyPath.putAt, hentries]; rfl
      | item place => rw [KeyPath.putAt, KeyPath.putAt, hitems]; rfl
  unfold Placed.putAt
  rw [hlist]
  dsimp only [Option.map]
  rw [hvalue]
  rfl

theorem valueOver_of_not_isOpen (hl : l.concerns key = true) {below : Option Placed}
    (h : Placed.isOpen below = false) : l.valueOver key below = l.valueOver key none := by
  cases below with
  | none => rfl
  | some p =>
    unfold concerns at hl
    unfold valueOver
    generalize l.entries = entries at hl
    induction entries with
    | nil => cases hl
    | cons e entries ih =>
      rw [List.foldl_cons, List.foldl_cons]
      by_cases hroot : (KeyPath.ofText e.1).root = key
      · -- from this entry on there is no difference
        have hput : putFor key l.origin (some p) e = putFor key l.origin none e := by
          rw [putFor, putFor, if_pos hroot, if_pos hroot, putAt_of_not_hasParts h]
        rw [hput]
      · have hskip (b : Option Placed) : putFor key l.origin b e = b := if_neg hroot
        rw [hskip, hskip]
        apply ih
        simpa [hroot] using hl

end Layer

/-! ## All sources -/

namespace Merged

theorem get?_put (merged : Merged) (key : String) (origin : Option String) (e : String × Json) :
    (put origin merged e).get? key = Layer.putFor key origin (merged.get? key) e := by
  unfold put Layer.putFor
  dsimp only
  split_ifs with h
  · rw [h, Dict.get?_insert_self]
  · exact Dict.get?_insert_of_ne (fun heq => h heq.symm) _ _

theorem get?_add (merged : Merged) (key : String) (l : Layer) :
    (merged.add l).get? key = l.valueOver key (merged.get? key) := by
  unfold add Layer.valueOver
  induction l.entries generalizing merged with
  | nil => rfl
  | cons e entries ih => rw [List.foldl_cons, List.foldl_cons, ih, get?_put]

theorem ofLayers_append (layers : List Layer) (l : Layer) :
    ofLayers (layers ++ [l]) = (ofLayers layers).add l := List.foldl_append

/-- A source with one entry puts it over what the sources before it set. -/
theorem ofLayers_append_entry {key : String} {path : KeyPath} (h : KeyPath.ofText key = path)
    (layers : List Layer) {l : Layer} {v : Json} (hl : l.entries = [(key, v)]) :
    ofLayers (layers ++ [l]) = (ofLayers layers).insert path.root
      (.putAt l.origin v path.steps ((ofLayers layers).get? path.root)) := by
  rw [ofLayers_append, add, hl, ← h]
  rfl

/-- The sources that count with one more source make a key what that one makes of it. -/
theorem get?_count (key : String) (chosen : List Layer) (l : Layer) :
    (ofLayers (l.count key chosen)).get? key = ((ofLayers chosen).add l).get? key := by
  have halone : (ofLayers [l]).get? key = l.valueOver key none := get?_add [] key l
  rw [get?_add]
  unfold Layer.count
  split_ifs with hconcerns hcut
  · exact (Layer.valueOver_of_not_concerns hconcerns _).symm
  · rw [halone]
    rcases Bool.or_eq_true_iff.mp hcut with hsettles | hopen
    · exact (Layer.valueOver_of_settles hsettles _).symm
    · have hconcerns : l.concerns key = true := by simpa using hconcerns
      exact (Layer.valueOver_of_not_isOpen hconcerns (by simpa using hopen)).symm
  · rw [ofLayers_append, get?_add]

/-- The sources that count make a key what all sources make it. -/
theorem get?_deciding (layers : List Layer) (key : String) :
    (ofLayers (Layer.deciding key layers)).get? key = (ofLayers layers).get? key := by
  have hrun (chosen : List Layer) (merged : Merged)
      (h : (ofLayers chosen).get? key = merged.get? key) :
      (ofLayers (layers.foldl (Layer.count key) chosen)).get? key =
        (layers.foldl add merged).get? key := by
    induction layers generalizing chosen merged with
    | nil => exact h
    | cons l layers ih =>
      rw [List.foldl_cons, List.foldl_cons]
      apply ih
      rw [get?_count, get?_add, get?_add, h]
  exact hrun [] [] rfl

theorem read_deciding {α : Type} (layers : List Layer) (key : String) (standard : α)
    (reader : String → Placed → Except SettingsError α) :
    (ofLayers (Layer.deciding key layers)).read key standard reader =
      (ofLayers layers).read key standard reader := by
  unfold read
  rw [get?_deciding]

end Merged

namespace Layer

theorem foldl_count_of_not_concerns {key : String} {layers : List Layer}
    (h : ∀ l ∈ layers, l.concerns key = false) (chosen : List Layer) :
    layers.foldl (count key) chosen = chosen := by
  induction layers with
  | nil => rfl
  | cons l layers ih =>
    have hl : l.count key chosen = chosen := if_pos (h l List.mem_cons_self)
    rw [List.foldl_cons, hl]
    exact ih fun l' hl' => h l' (List.mem_cons_of_mem l hl')

/-- The last source that concerns a key decides alone, unless those before it give a table or a list
and it does not settle the key. -/
theorem deciding_eq_singleton {key : String} {before after : List Layer} {l : Layer}
    (hl : l.concerns key = true) (hafter : ∀ l' ∈ after, l'.concerns key = false)
    (h : l.settles key = true ∨ Placed.isOpen ((Merged.ofLayers before).get? key) = false) :
    deciding key (before ++ l :: after) = [l] := by
  have hcut : (l.settles key ||
      !Placed.isOpen ((Merged.ofLayers (deciding key before)).get? key)) = true := by
    rw [Merged.get?_deciding]
    rcases h with h | h <;> simp [h]
  have hcount : count key (deciding key before) l = [l] := by
    rw [count, hl, if_neg (by simp), if_pos hcut]
  have hfold : deciding key (before ++ l :: after) =
      after.foldl (count key) (count key (deciding key before) l) := by
    rw [deciding, List.foldl_append, List.foldl_cons]
    rfl
  rw [hfold, hcount, foldl_count_of_not_concerns hafter]

end Layer

namespace Settings

/-- The settings from sources, each from those that count for its key. -/
def ofDeciding (layers : List Layer) : Except SettingsError Settings := do
  let merged (key : String) : Merged := .ofLayers (Layer.deciding key layers)
  return ⟨← (merged basePathKey).read basePathKey standard.basePath Placed.readText,
    ← (merged pageSelectorKey).read pageSelectorKey standard.pageSelector Placed.readSelector,
    ← (merged shellContextKey).read shellContextKey standard.shellContext Placed.readText,
    ← (merged invalidSelectorKey).read invalidSelectorKey standard.invalidSelector
      Placed.readPolicy⟩

theorem ofLayers_eq_ofDeciding (layers : List Layer) : ofLayers layers = ofDeciding layers := by
  unfold ofLayers ofMerged ofDeciding
  simp only [Merged.read_deciding]

end Settings

/-! ## Which paths some keys are -/

namespace KeyPath

/-- The text can name an entry in a path. -/
def IsName (name : String) : Prop := name.toList ≠ [] ∧ ∀ c ∈ name.toList, isNameChar c = true

variable {key root name : String}

/-- The path of a key starts at the name before the first character that no name has. -/
theorem ofText?_append {rest : List Char} (hkey : key.toList = root.toList ++ rest)
    (hroot : IsName root) (hrest : ∀ c ∈ rest.head?, isNameChar c = false) :
    ofText? key = (readSteps? rest).map (⟨root, ·⟩) := by
  unfold ofText?
  dsimp only
  rw [hkey, takeWhile_run hroot.2 hrest, if_neg hroot.1, List.drop_left, String.ofList_toList]
  cases readSteps? rest <;> rfl

/-- A key without points and brackets is a name. -/
theorem ofText_name (h : IsName key) : ofText key = ⟨key, []⟩ := by
  have hsteps : readSteps? [] = some [] := by rw [readSteps?]
  rw [ofText, ofText?_append (List.append_nil _).symm h (by simp), hsteps]
  rfl

/-- Two names with a point between them are an entry of a table. -/
theorem ofText_entry (hkey : key.toList = root.toList ++ '.' :: name.toList) (hroot : IsName root)
    (hname : IsName name) : ofText key = ⟨root, [.entry name]⟩ := by
  have hsteps : readSteps? ('.' :: name.toList) = some [.entry name] := by
    rw [readSteps?, List.takeWhile_eq_self_iff.mpr hname.2, if_neg hname.1, List.drop_length,
      readSteps?, String.ofList_toList]
    rfl
  have hpoint : ∀ c ∈ ('.' :: name.toList).head?, isNameChar c = false := by
    intro c hc
    obtain rfl := Option.some.inj hc
    rfl
  rw [ofText, ofText?_append hkey hroot hpoint, hsteps]
  rfl

theorem isName_invalidSelector : IsName "invalid-selector" :=
  ⟨by decide, List.all_eq_true.mp (by decide)⟩

theorem ofText_invalidSelector : ofText "invalid-selector" = ⟨"invalid-selector", []⟩ :=
  ofText_name isName_invalidSelector

theorem ofText_invalidSelector_matchNone :
    ofText "invalid-selector.match-none" = ⟨"invalid-selector", [.entry "match-none"]⟩ :=
  ofText_entry rfl isName_invalidSelector ⟨by decide, List.all_eq_true.mp (by decide)⟩

end KeyPath

/-! ## Which sources there are -/

namespace FileChoice

/-- The names at the end, from a reset on if there is one. -/
theorem paths_append_reset {r : String} (hr : isReset r = true) (p q : List String) :
    (ofNames (p ++ r :: q)).paths = (ofNames q).paths := by
  have hstop (tail run : List String) : (run ++ r :: tail).takeWhile (!isReset ·) =
      run.takeWhile (!isReset ·) := by
    induction run with
    | nil => simp [hr]
    | cons n run ih => simp only [List.cons_append, List.takeWhile_cons, ih]
  unfold ofNames
  rw [List.reverse_append, List.reverse_cons, List.append_assoc]
  exact congrArg List.reverse (hstop p.reverse q.reverse)

theorem any_isReset_append {r : String} (hr : isReset r = true) (p q : List String) :
    (p ++ r :: q).any isReset = true :=
  List.any_eq_true.mpr ⟨r, List.mem_append_right p List.mem_cons_self, hr⟩

/-- A reset drops all names before it. -/
theorem ofNames_append_reset {r : String} (hr : isReset r = true) (p q : List String) :
    ofNames (p ++ r :: q) = ⟨false, (ofNames q).paths⟩ := by
  have hreads : (ofNames (p ++ r :: q)).readsUserFile = false := by
    rw [ofNames, any_isReset_append hr]
    rfl
  rw [← paths_append_reset hr p q, ← hreads]

theorem ofNames_of_no_reset {names : List String} (h : ∀ n ∈ names, isReset n = false) :
    ofNames names = ⟨true, names⟩ := by
  have hany : names.any isReset = false := by simpa using h
  have hrun : ∀ n ∈ names.reverse, (!isReset n) = true := by
    intro n hn
    rw [h n (List.mem_reverse.mp hn)]
    rfl
  rw [ofNames, hany, List.takeWhile_eq_self_iff.mpr hrun, List.reverse_reverse]
  rfl

/-- A list has a last reset, or none. -/
theorem exists_last_reset (names : List String) : (∀ n ∈ names, isReset n = false) ∨
    ∃ p r q, names = p ++ r :: q ∧ isReset r = true ∧ ∀ n ∈ q, isReset n = false := by
  induction names with
  | nil => exact .inl (List.forall_mem_nil _)
  | cons n names ih =>
    rcases ih with hnone | ⟨p, r, q, rfl, hr, hq⟩
    · cases hn : isReset n with
      | true => exact .inr ⟨[], n, names, rfl, hn, hnone⟩
      | false => exact .inl (List.forall_mem_cons.mpr ⟨hn, hnone⟩)
    · exact .inr ⟨n :: p, r, q, rfl, hr, hq⟩

/-- Without a reset the sources are the user's own file, which need not be there, and all that are
named. Otherwise they are those that are named after the last reset. -/
theorem sources_cases (names : List String) (userFile? : Option String) :
    ((∀ n ∈ names, isReset n = false) ∧ (ofNames names).sources userFile? =
        userFile?.toList.map (.file · true) ++ names.map (.file · false)) ∨
      ∃ p r q, names = p ++ r :: q ∧ isReset r = true ∧ (∀ n ∈ q, isReset n = false) ∧
        (ofNames names).sources userFile? = q.map (.file · false) := by
  rcases exists_last_reset names with hnone | ⟨p, r, q, rfl, hr, hq⟩
  · refine .inl ⟨hnone, ?_⟩
    rw [ofNames_of_no_reset hnone]
    rfl
  · refine .inr ⟨p, r, q, rfl, hr, hq, ?_⟩
    rw [ofNames_append_reset hr, ofNames_of_no_reset hq]
    rfl

end FileChoice

/-! ## The settings of a call -/

namespace Program

theorem result_forM_noteSource (sources : List Source) :
    (sources.forM noteSource).result = .ok () := by
  induction sources with
  | nil => rfl
  | cons source sources ih =>
    have hnote : (noteSource source).result = .ok () := by cases source <;> rfl
    show (noteSource source >>= fun _ => sources.forM noteSource).result = .ok ()
    rw [Logged.bind_of_ok hnote]
    exact ih

theorem result_readSettings (w : Surroundings) (names : List String) :
    (readSettings w names).result =
      (Settings.load w.files ((FileChoice.ofNames names).sources (ownFile? w))).mapError
        .settings := by
  have hsources := result_forM_noteSource ((FileChoice.ofNames names).sources (ownFile? w))
  unfold readSettings
  dsimp only
  split_ifs
  · rw [Logged.bind_of_ok (a := ()) rfl, Logged.bind_of_ok hsources]
    rfl
  · rw [Logged.bind_of_ok hsources]
    rfl

/-- The sources of the settings of a call are what its file names choose, of which an own file that
is not found or cannot be read says nothing. Each setting is what the sources make it that count for its key: the last
one that concerns the key, alone, unless it may change no more than a part of a table or a list; and
if none concerns the key, none, so that the setting has its standard value. A reset makes it
indifferent what was named before it. -/
theorem readSettings_deciding (w : Surroundings) (names : List String) :
    let sources := (FileChoice.ofNames names).sources (ownFile? w)
    (((∀ n ∈ names, FileChoice.isReset n = false) ∧ sources =
          (ownFile? w).toList.map (.file · true) ++ names.map (.file · false)) ∨
        ∃ p r q, names = p ++ r :: q ∧ FileChoice.isReset r = true ∧
          (∀ n ∈ q, FileChoice.isReset n = false) ∧ sources = q.map (.file · false)) ∧
      (∀ path e, SettingsFile.find w.files path = .error e →
        ∃ l, Source.read w.files (.file path true) = .ok l ∧
          ∀ key, Layer.concerns key l = false) ∧
      (readSettings w names).result =
        (sources.mapM (Source.read w.files) >>= Settings.ofDeciding).mapError .settings ∧
      (∀ key before l after, Layer.concerns key l = true →
        (∀ l' ∈ after, Layer.concerns key l' = false) →
        (Layer.settles key l = true ∨
          Placed.isOpen ((Merged.ofLayers before).get? key) = false) →
        Layer.deciding key (before ++ l :: after) = [l]) ∧
      (∀ key layers, (∀ l ∈ layers, Layer.concerns key l = false) →
        Layer.deciding key layers = []) ∧
      ∀ p r q, names = p ++ r :: q → FileChoice.isReset r = true →
        readSettings w names = readSettings w (r :: q) := by
  intro sources
  refine ⟨FileChoice.sources_cases names (ownFile? w), ?_, ?_, ?_, ?_, ?_⟩
  · intro path e hfind
    refine ⟨⟨none, []⟩, ?_, fun _ => rfl⟩
    rw [Source.read, hfind]
    rfl
  · have hload : Settings.load w.files sources =
        sources.mapM (Source.read w.files) >>= Settings.ofDeciding :=
      congrArg (sources.mapM (Source.read w.files) >>= ·) (funext Settings.ofLayers_eq_ofDeciding)
    rw [result_readSettings, ← hload]
  · intro key before l after hl hafter h
    exact Layer.deciding_eq_singleton hl hafter h
  · intro key layers h
    exact Layer.foldl_count_of_not_concerns h []
  · rintro p r q rfl hr
    have hchoice : FileChoice.ofNames (p ++ r :: q) = FileChoice.ofNames (r :: q) :=
      (FileChoice.ofNames_append_reset hr p q).trans (FileChoice.ofNames_append_reset hr [] q).symm
    rw [readSettings, readSettings, hchoice]

/-- A table and a path into it count together, and make two entries, which are no policy. A text
after them counts alone. -/
theorem readSettings_deciding_text :
    let table : Layer := ⟨some "a.yaml", [("invalid-selector", .object [("fail", .int 1)])]⟩
    let path : Layer := ⟨some "b.yaml", [("invalid-selector.match-none", .int 1)]⟩
    let text : Layer := ⟨some "c.yaml", [("invalid-selector", .string "match-all")]⟩
    Layer.deciding "invalid-selector" [table, path] = [table, path] ∧
      Settings.ofDeciding [table, path] = .error (.unnamedPolicy "invalid-selector") ∧
      Layer.deciding "invalid-selector" [table, path, text] = [text] ∧
      Settings.ofDeciding [table, path, text] =
        .ok ⟨"/", .all, "application-shell", .matchAll⟩ := by
  intro table path text
  have hname := KeyPath.ofText_invalidSelector
  have hentry := KeyPath.ofText_invalidSelector_matchNone
  -- what the sources make the key
  have htable : Merged.ofLayers [table] =
      [("invalid-selector", ⟨.object [("fail", .int 1)], none⟩)] :=
    Merged.ofLayers_append_entry hname [] (l := table) rfl
  have hboth : Merged.ofLayers [table, path] =
      [("invalid-selector", ⟨.object [("fail", .int 1), ("match-none", .int 1)], none⟩)] := by
    refine (Merged.ofLayers_append_entry hentry [table] (l := path) rfl).trans ?_
    rw [htable]
    rfl
  have hall : Merged.ofLayers [table, path, text] =
      [("invalid-selector", ⟨.string "match-all", some "c.yaml"⟩)] := by
    refine (Merged.ofLayers_append_entry hname [table, path] (l := text) rfl).trans ?_
    rw [hboth]
    rfl
  refine ⟨?_, ?_, ?_, ?_⟩
  · have hfirst : Layer.count "invalid-selector" [] table = [table] := by
      simp [Layer.count, Layer.concerns, table, hname]
    have hopen : Placed.isOpen ((Merged.ofLayers [table]).get? "invalid-selector") = true := by
      rw [htable]
      rfl
    have hsecond : Layer.count "invalid-selector" [table] path = [table, path] := by
      simp [Layer.count, Layer.concerns, Layer.settles, path, hentry, hopen]
    rw [Layer.deciding, List.foldl_cons, List.foldl_cons, hfirst, hsecond]
    rfl
  · rw [← Settings.ofLayers_eq_ofDeciding, Settings.ofLayers, hboth]
    rfl
  · obtain ⟨-, -, -, hlast, -, -⟩ := readSettings_deciding ⟨[], none, fun _ => .missing, []⟩ []
    have hconcerns : text.concerns "invalid-selector" = true := by
      simp [Layer.concerns, text, hname]
    have hsettles : text.settles "invalid-selector" = true := by
      simp [Layer.settles, text, hname, isTable]
    exact hlast _ [table, path] text [] hconcerns (List.forall_mem_nil _) (.inl hsettles)
  · rw [← Settings.ofLayers_eq_ofDeciding, Settings.ofLayers, hall]
    rfl

end Program

/-- Two tables for a policy become one of two entries, which is no policy, although the last one is
one on its own. -/
theorem ofLayers_tables_ne :
    let first : Layer := ⟨some "a.json", [("invalid-selector", .object [("fail", .int 1)])]⟩
    let last : Layer := ⟨some "b.json", [("invalid-selector", .object [("match-none", .int 1)])]⟩
    last.concerns Settings.invalidSelectorKey = true ∧
      Settings.ofLayers [first, last] = .error (.unnamedPolicy "invalid-selector") ∧
      Settings.ofLayers [last] = .ok ⟨"/", .all, "application-shell", .matchNone⟩ := by
  intro first last
  have hname := KeyPath.ofText_invalidSelector
  have hfirst : Merged.ofLayers [first] =
      [("invalid-selector", ⟨.object [("fail", .int 1)], none⟩)] :=
    Merged.ofLayers_append_entry hname [] (l := first) rfl
  have hlast : Merged.ofLayers [last] =
      [("invalid-selector", ⟨.object [("match-none", .int 1)], none⟩)] :=
    Merged.ofLayers_append_entry hname [] (l := last) rfl
  have hboth : Merged.ofLayers [first, last] =
      [("invalid-selector", ⟨.object [("fail", .int 1), ("match-none", .int 1)], none⟩)] := by
    refine (Merged.ofLayers_append_entry hname [first] (l := last) rfl).trans ?_
    rw [hfirst]
    rfl
  refine ⟨?_, ?_, ?_⟩
  · simp [Layer.concerns, last, hname, Settings.invalidSelectorKey]
  · rw [Settings.ofLayers, hboth]
    rfl
  · rw [Settings.ofLayers, hlast]
    rfl

end MicroFrontends
