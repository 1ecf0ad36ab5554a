import Chip8.Proofs.Entries
import Mathlib.Data.List.Forall2
import Mathlib.Data.List.Nodup
import Mathlib.Data.List.TakeWhile

set_option autoImplicit false

namespace Chip8.CommandLine

open Text

section Forms

theorem form_plain {arg : String} (plain : arg.toList.head? ≠ some '-') : Form.of arg = .plain := by
  unfold Form.of
  split
  next letters => simp [letters] at plain
  next letters => simp [letters] at plain
  next letters => simp [letters] at plain
  next => rfl

theorem form_long {arg : String} {cs : List Char} (letters : arg.toList = '-' :: '-' :: cs)
    (named : cs ≠ []) : Form.of arg = .long (splitEquals cs).1 (splitEquals cs).2 := by
  unfold Form.of
  rw [letters]
  cases cs with
  | nil => exact absurd rfl named
  | cons c rest => rfl

theorem form_short {arg : String} {name : Char} {cs : List Char}
    (letters : arg.toList = '-' :: name :: cs) (other : name ≠ '-') :
    Form.of arg = .short name (attached cs) := by
  unfold Form.of
  rw [letters]
  split
  next same => simp [other] at same
  next same => simp [other] at same
  next same =>
    cases same
    rfl
  next none => exact absurd rfl (none _ _)

theorem splitEquals_name {name : String} (whole : '=' ∉ name.toList) :
    splitEquals name.toList = (name, none) := by
  have dropped : name.toList.dropWhile (· ≠ '=') = [] := by
    simp only [List.dropWhile_eq_nil_iff, decide_eq_true_eq]
    rintro c found rfl
    exact whole found
  simp only [splitEquals, dropped, String.ofList_toList]

theorem splitEquals_value {name value : String} (whole : '=' ∉ name.toList) :
    splitEquals (name.toList ++ '=' :: value.toList) = (name, some value) := by
  have before : ∀ c ∈ name.toList, decide (c ≠ '=') = true := by
    simp only [decide_eq_true_eq]
    rintro c found rfl
    exact whole found
  have dropped : (name.toList ++ '=' :: value.toList).dropWhile (· ≠ '=') =
      '=' :: value.toList := by
    rw [List.dropWhile_append_of_pos before]
    rfl
  have taken : (name.toList ++ '=' :: value.toList).takeWhile (· ≠ '=') = name.toList := by
    rw [List.takeWhile_append_of_pos before]
    exact List.append_nil _
  simp only [splitEquals, dropped, taken, String.ofList_toList]

theorem attached_equals (value : String) : attached ('=' :: value.toList) = some value := by
  simp [attached]

theorem attached_direct {value : String} {c : Char} {rest : List Char}
    (letters : value.toList = c :: rest) (other : c ≠ '=') :
    attached value.toList = some value := by
  unfold attached
  split
  next none => simp [none] at letters
  next same => simp [same, Ne.symm other] at letters
  next => rw [String.ofList_toList]

theorem form_long_separate {name : String} (given : name.toList ≠ []) (whole : '=' ∉ name.toList) :
    Form.of ("--" ++ name) = .long name none := by
  have letters : ("--" ++ name).toList = '-' :: '-' :: name.toList := by simp
  rw [form_long letters given, splitEquals_name whole]

theorem form_long_equals {name : String} (value : String) (whole : '=' ∉ name.toList) :
    Form.of ("--" ++ name ++ "=" ++ value) = .long name (some value) := by
  have letters : ("--" ++ name ++ "=" ++ value).toList =
      '-' :: '-' :: (name.toList ++ '=' :: value.toList) := by simp
  rw [form_long letters (by simp), splitEquals_value whole]

theorem form_short_separate {name : Char} (other : name ≠ '-') :
    Form.of ("-" ++ String.singleton name) = .short name none := by
  have letters : ("-" ++ String.singleton name).toList = '-' :: name :: [] := by simp
  rw [form_short letters other]
  rfl

theorem form_short_equals {name : Char} (value : String) (other : name ≠ '-') :
    Form.of ("-" ++ String.singleton name ++ "=" ++ value) = .short name (some value) := by
  have letters : ("-" ++ String.singleton name ++ "=" ++ value).toList =
      '-' :: name :: '=' :: value.toList := by simp
  rw [form_short letters other, attached_equals]

theorem form_short_attached {name c : Char} {value : String} {rest : List Char}
    (other : name ≠ '-') (starts : value.toList = c :: rest) (direct : c ≠ '=') :
    Form.of ("-" ++ String.singleton name ++ value) = .short name (some value) := by
  have letters : ("-" ++ String.singleton name ++ value).toList =
      '-' :: name :: value.toList := by simp
  rw [form_short letters other, attached_direct starts direct]

end Forms

namespace Parameter

theorem long_name {p : Parameter} {name : String} (named : p.long? = some name) :
    name.toList ≠ [] ∧ '=' ∉ name.toList := by
  cases p <;> cases named <;> decide +kernel

theorem short_name {p : Parameter} {name : Char} (named : p.short? = some name) : name ≠ '-' := by
  cases p <;> cases named <;> decide

end Parameter

/-- The ways to write a parameter and the text of its value. The text follows the name in an
argument of its own or in the same one behind an equals sign, and a short name also directly. -/
inductive Parameter.Spelled (p : Parameter) (text : String) : List String → Prop where
  | longSeparate {name : String} : p.long? = some name → p.Spelled text ["--" ++ name, text]
  | longEquals {name : String} : p.long? = some name → p.Spelled text ["--" ++ name ++ "=" ++ text]
  | shortSeparate {name : Char} :
    p.short? = some name → p.Spelled text ["-" ++ String.singleton name, text]
  | shortEquals {name : Char} :
    p.short? = some name → p.Spelled text ["-" ++ String.singleton name ++ "=" ++ text]
  | shortAttached {name : Char} :
    p.short? = some name → p.Spelled text ["-" ++ String.singleton name ++ text]

namespace Entry

inductive Spelled : Entry → List String → Prop where
  | rom (path : String) : Spelled (.rom path) [path]
  | clockRate {n : Nat} {text : String} {args : List String} :
    Denotes text.toList n → Parameter.clockRate.Spelled text args → Spelled (.clockRate n) args
  | scale {n : Nat} {text : String} {args : List String} :
    Denotes text.toList n → Parameter.scale.Spelled text args → Spelled (.scale n) args
  | seed {n : Nat} {text : String} {args : List String} :
    Denotes text.toList n → Parameter.seed.Spelled text args → Spelled (.seed n) args
  | mute : Spelled .mute ["--mute"]

end Entry

namespace Reader

variable {r : Reader} {d : Draft}

structure Stands (r : Reader) (d : Draft) : Prop where
  options : r.plainOnly = false
  supplied : ∀ p, r.pending ≠ some (p, none)
  settled : r.settle = .ok ⟨d, none, false⟩
  romGiven : r.romGiven = d.rom.isSome

theorem stands_entered (d : Draft) : Stands ⟨d, none, false⟩ d where
  options := rfl
  supplied := by simp
  settled := rfl
  romGiven := by simp [Reader.romGiven]

theorem stands_pending {e : Entry} {text : String}
    (entered : d.enter e.parameter (some text) = .ok (d.put e)) :
    Stands ⟨d, some (e.parameter, some text), false⟩ (d.put e) where
  options := rfl
  supplied := by simp
  settled := bind_eq_ok_iff.2 ⟨_, entered, rfl⟩
  romGiven := by cases e <;> simp [Reader.romGiven, Entry.parameter, Draft.put]

theorem take_plain (stands : r.Stands d) {arg : String} (plain : Form.of arg = .plain) :
    r.take arg = r.takePlain arg := by
  unfold take
  rw [stands.options, plain]
  cases pending : r.pending with
  | none => rfl
  | some waiting =>
    obtain ⟨p, value⟩ := waiting
    cases value with
    | none => exact absurd pending (stands.supplied p)
    | some text => rfl

section Named

variable {p : Parameter} {arg : String} {value : Option String}

theorem take_long {name : String} (options : r.plainOnly = false)
    (form : Form.of arg = .long name value) : r.take arg = r.takeLong name value := by
  unfold take
  rw [options, form]
  rfl

theorem take_long_option {name : String} (options : r.plainOnly = false)
    (named : p.long? = some name) (takes : p.takesValue = true)
    (form : Form.of arg = .long name value) : r.take arg = r.takeOption p value := by
  rw [take_long options form, takeLong, Parameter.ofLong?_long? p name named]
  exact if_pos takes

theorem take_short_option {name : Char} (options : r.plainOnly = false)
    (named : p.short? = some name) (takes : p.takesValue = true)
    (form : Form.of arg = .short name value) : r.take arg = r.takeOption p value := by
  unfold take
  rw [options, form]
  change r.takeShort name value = _
  rw [takeShort, Parameter.ofShort?_short? p name named]
  exact if_pos takes

end Named

section Options

variable {e : Entry} {arg text : String}

theorem run_rom (stands : r.Stands d) {path : String} (lacks : d.Lacks .rom) (given : path ≠ "")
    (plain : path.toList.head? ≠ some '-') :
    ∃ r', [path].foldlM take r = .ok r' ∧ r'.Stands (d.put (.rom path)) := by
  have free : r.romGiven = false := by
    rw [stands.romGiven, (lacks : d.rom = none)]
    rfl
  have taken : r.take path = .ok ⟨d, some (.rom, some path), false⟩ := by
    rw [take_plain stands (form_plain plain), takePlain, free]
    exact bind_eq_ok_iff.2 ⟨_, stands.settled, rfl⟩
  have entered := Draft.enter_text (e := .rom path) lacks given rfl
  exact ⟨_, bind_eq_ok_iff.2 ⟨_, taken, rfl⟩, stands_pending entered⟩

theorem run_mute (stands : r.Stands d) (lacks : d.Lacks .mute) :
    ∃ r', ["--mute"].foldlM take r = .ok r' ∧ r'.Stands (d.put .mute) := by
  have form : Form.of "--mute" = .long "mute" none := by decide +kernel
  have named : Parameter.ofLong? "mute" = some .mute := Parameter.ofLong?_long? .mute _ rfl
  have silent : d.muted = false := lacks
  have entered : d.enter .mute none = .ok (d.put .mute) := by
    simp [Draft.enter, silent, Draft.put]
  have taken : r.take "--mute" = .ok ⟨d.put .mute, none, false⟩ := by
    rw [take_long stands.options form, takeLong, named]
    exact bind_eq_ok_iff.2 ⟨_, stands.settled, bind_eq_ok_iff.2 ⟨_, entered, rfl⟩⟩
  exact ⟨_, bind_eq_ok_iff.2 ⟨_, taken, rfl⟩, stands_entered _⟩

theorem run_separate (stands : r.Stands d) (taken : r.take arg = r.takeOption e.parameter none)
    (plain : Form.of text = .plain)
    (entered : d.enter e.parameter (some text) = .ok (d.put e)) :
    ∃ r', [arg, text].foldlM take r = .ok r' ∧ r'.Stands (d.put e) := by
  have named : r.take arg = .ok ⟨d, some (e.parameter, none), false⟩ := by
    rw [taken]
    exact bind_eq_ok_iff.2 ⟨_, stands.settled, rfl⟩
  have supplied : take ⟨d, some (e.parameter, none), false⟩ text =
      .ok ⟨d, some (e.parameter, some text), false⟩ := by
    unfold take
    rw [plain]
    rfl
  refine ⟨_, ?_, stands_pending entered⟩
  exact bind_eq_ok_iff.2 ⟨_, named, bind_eq_ok_iff.2 ⟨_, supplied, rfl⟩⟩

theorem run_attached (stands : r.Stands d)
    (taken : r.take arg = r.takeOption e.parameter (some text))
    (entered : d.enter e.parameter (some text) = .ok (d.put e)) :
    ∃ r', [arg].foldlM take r = .ok r' ∧ r'.Stands (d.put e) := by
  have named : r.take arg = .ok ⟨d.put e, none, false⟩ := by
    rw [taken]
    exact bind_eq_ok_iff.2 ⟨_, stands.settled, bind_eq_ok_iff.2 ⟨_, entered, rfl⟩⟩
  exact ⟨_, bind_eq_ok_iff.2 ⟨_, named, rfl⟩, stands_entered _⟩

theorem run_number {n : Nat} (stands : r.Stands d) (numeral : Denotes text.toList n)
    (takes : e.parameter.takesValue = true)
    (entered : d.enter e.parameter (some text) = .ok (d.put e)) {args : List String}
    (spelled : e.parameter.Spelled text args) :
    ∃ r', args.foldlM take r = .ok r' ∧ r'.Stands (d.put e) := by
  obtain ⟨c, rest, starts, noDash, noEquals⟩ := numeral.starts
  have plain : Form.of text = .plain := form_plain (by simp [starts, noDash])
  have options := stands.options
  cases spelled with
  | longSeparate named =>
    obtain ⟨given, whole⟩ := Parameter.long_name named
    have form := form_long_separate given whole
    exact run_separate stands (take_long_option options named takes form) plain entered
  | longEquals named =>
    have form := form_long_equals text (Parameter.long_name named).2
    exact run_attached stands (take_long_option options named takes form) entered
  | shortSeparate named =>
    have form := form_short_separate (Parameter.short_name named)
    exact run_separate stands (take_short_option options named takes form) plain entered
  | shortEquals named =>
    have form := form_short_equals text (Parameter.short_name named)
    exact run_attached stands (take_short_option options named takes form) entered
  | shortAttached named =>
    have form := form_short_attached (Parameter.short_name named) starts noEquals
    exact run_attached stands (take_short_option options named takes form) entered

end Options

theorem run_entry {e : Entry} {args : List String} (stands : r.Stands d)
    (lacks : d.Lacks e.parameter) (inRange : e.InRange)
    (plain : ∀ path, e = .rom path → path.toList.head? ≠ some '-') (spelled : e.Spelled args) :
    ∃ r', args.foldlM take r = .ok r' ∧ r'.Stands (d.put e) := by
  cases spelled with
  | rom path => exact run_rom stands lacks inRange (plain path rfl)
  | clockRate numeral spelled =>
    exact run_number stands numeral rfl (Draft.enter_text lacks inRange numeral) spelled
  | scale numeral spelled =>
    exact run_number stands numeral rfl (Draft.enter_text lacks inRange numeral) spelled
  | seed numeral spelled =>
    exact run_number stands numeral rfl (Draft.enter_text lacks inRange numeral) spelled
  | mute => exact run_mute stands lacks

theorem run_entries {entries : List Entry} {words : List (List String)}
    (spelled : List.Forall₂ Entry.Spelled entries words) (stands : r.Stands d)
    (distinct : (entries.map Entry.parameter).Nodup)
    (lacks : ∀ e ∈ entries, d.Lacks e.parameter) (inRange : ∀ e ∈ entries, e.InRange)
    (plain : ∀ path, Entry.rom path ∈ entries → path.toList.head? ≠ some '-') :
    ∃ r', words.flatten.foldlM take r = .ok r' ∧ r'.Stands (entries.foldl Draft.put d) := by
  induction spelled generalizing r d with
  | nil => exact ⟨r, rfl, stands⟩
  | @cons e args rest others first spelled ih =>
    simp only [List.mem_cons, forall_eq_or_imp] at lacks inRange
    simp only [List.map_cons, List.nodup_cons, List.mem_map, not_exists, not_and] at distinct
    have plainFirst (path : String) (same : e = .rom path) : path.toList.head? ≠ some '-' :=
      plain path (by simp [same])
    have plainRest (path : String) (found : .rom path ∈ rest) : path.toList.head? ≠ some '-' :=
      plain path (List.mem_cons_of_mem _ found)
    obtain ⟨r₁, taken, stands₁⟩ := run_entry stands lacks.1 inRange.1 plainFirst first
    have lacks₁ (e' : Entry) (found : e' ∈ rest) : (d.put e).Lacks e'.parameter :=
      Draft.lacks_put (fun same => distinct.1 e' found same.symm) (lacks.2 e' found)
    obtain ⟨r₂, takenRest, stands₂⟩ := ih stands₁ distinct.2 lacks₁ inRange.2 plainRest
    refine ⟨r₂, ?_, stands₂⟩
    rw [List.flatten_cons, List.foldlM_append]
    exact bind_eq_ok_iff.2 ⟨r₁, taken, takenRest⟩

end Reader

def entriesOf (rom : String) (rate scale seed : Option Nat) (muted : Bool) : List Entry :=
  .rom rom :: (rate.toList.map .clockRate ++ scale.toList.map .scale ++ seed.toList.map .seed ++
    if muted then [.mute] else [])

section Entries

variable {rom : String} {rate scale seed : Option Nat} {muted : Bool}

theorem distinct_entriesOf :
    ((entriesOf rom rate scale seed muted).map Entry.parameter).Nodup := by
  cases rate <;> cases scale <;> cases seed <;> cases muted <;>
    simp [entriesOf, Entry.parameter]

theorem inRange_of_mem_entriesOf (given : rom ≠ "")
    (rates : ∀ n ∈ rate, 1 ≤ n ∧ n ≤ rateLimit) (scales : ∀ n ∈ scale, n ∈ Host.Scale.factors)
    (seeds : ∀ n ∈ seed, n < UInt64.size) :
    ∀ e ∈ entriesOf rom rate scale seed muted, e.InRange := by
  intro e found
  simp only [entriesOf, List.mem_cons, List.mem_append, List.mem_map, Option.mem_toList] at found
  rcases found with rfl | ((⟨n, here, rfl⟩ | ⟨n, here, rfl⟩) | ⟨n, here, rfl⟩) | here
  · exact given
  · exact rates n here
  · exact scales n here
  · exact seeds n here
  · cases e with
    | mute => trivial
    | _ => cases muted <;> simp at here

theorem rom_of_mem_entriesOf {path : String}
    (found : .rom path ∈ entriesOf rom rate scale seed muted) : path = rom := by
  cases muted <;> simpa [entriesOf] using found

theorem draft_entriesOf :
    (entriesOf rom rate scale seed muted).foldl Draft.put .empty =
      ⟨some rom, rate, scale, seed, muted⟩ := by
  cases rate <;> cases scale <;> cases seed <;> cases muted <;> rfl

theorem draft_of_perm {entries entries' : List Entry} (order : entries.Perm entries')
    (distinct : (entries.map Entry.parameter).Nodup) (d : Draft) :
    entries.foldl Draft.put d = entries'.foldl Draft.put d := by
  apply order.foldl_eq'
  intro e found e' found' d
  by_cases same : e = e'
  · rw [same]
  · have other := mt (List.inj_on_of_nodup_map distinct found found') same
    exact Draft.put_comm other d

end Entries

/-- Settings in range, written in any order and in any spelling, are read as they were meant, with
500 for a rate that is not given and 8 for a scale. Whatever the arguments are, they are refused,
ask for help or the version, or stand for settings in range. -/
theorem settings_are_read_as_written :
    (∀ (rom : String) (rate scale seed : Option Nat) (muted : Bool),
      rom ≠ "" → rom.toList.head? ≠ some '-' →
      (∀ n ∈ rate, 1 ≤ n ∧ n ≤ 4294967295) → (∀ n ∈ scale, n ∈ [1, 2, 4, 8, 16, 32]) →
      (∀ n ∈ seed, n < UInt64.size) →
      ∀ (entries : List Entry) (words : List (List String)),
        entries.Perm (entriesOf rom rate scale seed muted) →
        List.Forall₂ Entry.Spelled entries words →
        read words.flatten = .ok ⟨rom, rate.getD 500, scale.getD 8, seed, muted⟩) ∧
    ∀ args : List String,
      (∃ exit, read args = .error exit) ∨ ∃ s, read args = .ok s ∧ s.InRange := by
  constructor
  · intro rom rate scale seed muted given plain rates scales seeds entries words order spelled
    have distinct : (entries.map Entry.parameter).Nodup :=
      (order.map Entry.parameter).nodup_iff.2 distinct_entriesOf
    have inRange (e : Entry) (found : e ∈ entries) : e.InRange :=
      inRange_of_mem_entriesOf given rates scales seeds e (order.subset found)
    have plain (path : String) (found : .rom path ∈ entries) : path.toList.head? ≠ some '-' := by
      rw [rom_of_mem_entriesOf (order.subset found)]
      exact plain
    have lacks (e : Entry) (_ : e ∈ entries) : Draft.empty.Lacks e.parameter := by
      cases e <;> rfl
    obtain ⟨r, taken, stands⟩ :=
      Reader.run_entries spelled (Reader.stands_entered .empty) distinct lacks inRange plain
    rw [draft_of_perm order distinct, draft_entriesOf] at stands
    exact bind_eq_ok_iff.2 ⟨r, taken, bind_eq_ok_iff.2 ⟨_, stands.settled, rfl⟩⟩
  · intro args
    cases accepted : read args with
    | error exit => exact .inl ⟨exit, rfl⟩
    | ok s => exact .inr ⟨s, rfl, inRange_of_read accepted⟩

theorem mixed_spellings_are_read :
    read ["--seed=42", "-c", "700", "--mute", "pong.ch8", "-s16"] =
      .ok ⟨"pong.ch8", 700, 16, some 42, true⟩ := by
  have spelled : List.Forall₂ Entry.Spelled
      [.seed 42, .clockRate 700, .mute, .rom "pong.ch8", .scale 16]
      [["--" ++ "seed" ++ "=" ++ toString 42], ["-" ++ String.singleton 'c', toString 700],
        ["--mute"], ["pong.ch8"], ["-" ++ String.singleton 's' ++ toString 16]] :=
    .cons (.seed (denotes_toString 42) (.longEquals rfl)) <|
    .cons (.clockRate (denotes_toString 700) (.shortSeparate rfl)) <|
    .cons .mute <|
    .cons (.rom _) <|
    .cons (.scale (denotes_toString 16) (.shortAttached rfl)) .nil
  have order : [.seed 42, .clockRate 700, .mute, .rom "pong.ch8", .scale 16].Perm
      (entriesOf "pong.ch8" (some 700) (some 16) (some 42) true) := by
    decide
  exact settings_are_read_as_written.1 "pong.ch8" (some 700) (some 16) (some 42) true (by decide)
    (by decide) (by decide) (by decide) (by decide) _ _ order spelled

end Chip8.CommandLine
