import Chip8.CommandLine.Settings
import Chip8.Proofs.Values

set_option autoImplicit false

namespace Chip8.CommandLine

open Text

theorem bind_eq_ok_iff {ε α β : Type} {x : Except ε α} {f : α → Except ε β} {b : β} :
    x >>= f = .ok b ↔ ∃ a, x = .ok a ∧ f a = .ok b := by
  cases x <;> simp [bind, Except.bind]

inductive Entry where
  | rom (path : String)
  | clockRate (n : Nat)
  | scale (n : Nat)
  | seed (n : Nat)
  | mute
deriving DecidableEq, Repr

namespace Entry

def parameter : Entry → Parameter
  | .rom _ => .rom
  | .clockRate _ => .clockRate
  | .scale _ => .scale
  | .seed _ => .seed
  | .mute => .mute

def InRange : Entry → Prop
  | .rom path => path ≠ ""
  | .clockRate n => 1 ≤ n ∧ n ≤ rateLimit
  | .scale n => n ∈ Host.Scale.factors
  | .seed n => n < UInt64.size
  | .mute => True

def IsText : Entry → String → Prop
  | .rom path, text => text = path
  | .clockRate n, text | .scale n, text | .seed n, text => Denotes text.toList n
  | .mute, _ => False

end Entry

namespace Draft

variable {d d' : Draft}

def put (d : Draft) : Entry → Draft
  | .rom path => { d with rom := some path }
  | .clockRate n => { d with clockRate := some n }
  | .scale n => { d with scale := some n }
  | .seed n => { d with seed := some n }
  | .mute => { d with muted := true }

def Lacks (d : Draft) : Parameter → Prop
  | .rom => d.rom = none
  | .clockRate => d.clockRate = none
  | .scale => d.scale = none
  | .seed => d.seed = none
  | .mute => d.muted = false
  | .help | .version => True

theorem lacks_put {e : Entry} {p : Parameter} (other : e.parameter ≠ p) (lacks : d.Lacks p) :
    (d.put e).Lacks p := by
  cases e <;> cases p <;> first | exact lacks | exact absurd rfl other

theorem put_comm {e e' : Entry} (other : e.parameter ≠ e'.parameter) (d : Draft) :
    (d.put e).put e' = (d.put e').put e := by
  cases e <;> cases e' <;> first | rfl | exact absurd rfl other

theorem setRom_of_ne {path : String} (given : path ≠ "") :
    d.setRom (some path) = .ok (d.put (.rom path)) := by
  unfold setRom
  split
  next absent => cases absent
  next empty => exact absurd (Option.some.inj empty) given
  next text _ same =>
    cases same
    rfl

theorem path_of_setRom {value : Option String} (entered : d.setRom value = .ok d') :
    ∃ path, path ≠ "" ∧ d' = d.put (.rom path) := by
  unfold setRom at entered
  split at entered
  next => cases entered
  next => cases entered
  next path other =>
    cases entered
    exact ⟨path, other, rfl⟩

theorem once_of_read {α : Type} {p : Parameter} {old : Option α}
    {read : String → Except ValueError α} {text : String} {a : α} (lacks : old = none)
    (given : read text = .ok a) : once p old read (some text) = .ok a := by
  simp [once, lacks, given]

theorem read_of_once {α : Type} {p : Parameter} {old : Option α}
    {read : String → Except ValueError α} {value : Option String} {a : α}
    (entered : once p old read value = .ok a) : ∃ text, read text = .ok a := by
  unfold once at entered
  split at entered
  next => cases entered
  next text =>
    split at entered
    next => cases entered
    next =>
      split at entered
      next a' given =>
        cases entered
        exact ⟨text, given⟩
      next => cases entered

theorem enter_text {e : Entry} {text : String} (lacks : d.Lacks e.parameter)
    (inRange : e.InRange) (isText : e.IsText text) :
    d.enter e.parameter (some text) = .ok (d.put e) := by
  cases e with
  | rom path =>
    cases isText
    exact setRom_of_ne inRange
  | clockRate n =>
    have read := readRate_of_denotes isText inRange.1 inRange.2
    exact bind_eq_ok_iff.2 ⟨n, once_of_read lacks read, rfl⟩
  | scale n =>
    have read := readScale_eq_ok_iff.2 ⟨isText, inRange⟩
    exact bind_eq_ok_iff.2 ⟨n, once_of_read lacks read, rfl⟩
  | seed n =>
    have read := readSeed_eq_ok_iff.2 ⟨isText, inRange⟩
    exact bind_eq_ok_iff.2 ⟨n, once_of_read lacks read, rfl⟩
  | mute => exact absurd isText id

theorem entry_of_enter {p : Parameter} {value : Option String}
    (entered : d.enter p value = .ok d') :
    ∃ e : Entry, e.InRange ∧ d' = d.put e := by
  cases p with
  | rom =>
    obtain ⟨path, given, made⟩ := path_of_setRom entered
    exact ⟨.rom path, given, made⟩
  | clockRate =>
    obtain ⟨n, entered, made⟩ := bind_eq_ok_iff.1 entered
    obtain ⟨text, read⟩ := read_of_once entered
    cases made
    exact ⟨.clockRate n, rate_of_read read, rfl⟩
  | scale =>
    obtain ⟨n, entered, made⟩ := bind_eq_ok_iff.1 entered
    obtain ⟨text, read⟩ := read_of_once entered
    cases made
    exact ⟨.scale n, (readScale_eq_ok_iff.1 read).2, rfl⟩
  | seed =>
    obtain ⟨n, entered, made⟩ := bind_eq_ok_iff.1 entered
    obtain ⟨text, read⟩ := read_of_once entered
    cases made
    exact ⟨.seed n, (readSeed_eq_ok_iff.1 read).2, rfl⟩
  | mute =>
    simp only [enter] at entered
    split at entered
    next => cases entered
    next =>
      cases entered
      exact ⟨.mute, trivial, rfl⟩
  | help => cases entered
  | version => cases entered

structure Sound (d : Draft) : Prop where
  rom : ∀ path ∈ d.rom, path ≠ ""
  clockRate : ∀ n ∈ d.clockRate, 1 ≤ n ∧ n ≤ rateLimit
  scale : ∀ n ∈ d.scale, n ∈ Host.Scale.factors
  seed : ∀ n ∈ d.seed, n < UInt64.size

theorem sound_empty : Draft.empty.Sound := by
  constructor <;> simp [empty]

theorem Sound.put (sound : d.Sound) {e : Entry} (inRange : e.InRange) : (d.put e).Sound := by
  cases e with
  | rom path => exact { sound with rom := by simpa [Draft.put, Entry.InRange] using inRange }
  | clockRate n =>
    exact { sound with clockRate := by simpa [Draft.put, Entry.InRange] using inRange }
  | scale n => exact { sound with scale := by simpa [Draft.put, Entry.InRange] using inRange }
  | seed n => exact { sound with seed := by simpa [Draft.put, Entry.InRange] using inRange }
  | mute => exact { sound with }

theorem Sound.enter (sound : d.Sound) {p : Parameter} {value : Option String}
    (entered : d.enter p value = .ok d') : d'.Sound := by
  obtain ⟨e, inRange, rfl⟩ := entry_of_enter entered
  exact sound.put inRange

end Draft

namespace Reader

variable {r r' : Reader}

theorem sound_settle (sound : r.draft.Sound) (settled : r.settle = .ok r') : r'.draft.Sound := by
  unfold settle at settled
  split at settled
  next =>
    cases settled
    exact sound
  next p value pending =>
    obtain ⟨d, entered, made⟩ := bind_eq_ok_iff.1 settled
    cases made
    exact sound.enter entered

theorem sound_takePlain {arg : String} (sound : r.draft.Sound) (taken : r.takePlain arg = .ok r') :
    r'.draft.Sound := by
  unfold takePlain at taken
  split at taken
  next => cases taken
  next =>
    obtain ⟨r, settled, made⟩ := bind_eq_ok_iff.1 taken
    have sound := sound_settle sound settled
    cases made
    exact sound

theorem sound_takeOption {p : Parameter} {value : Option String} (sound : r.draft.Sound)
    (taken : r.takeOption p value = .ok r') : r'.draft.Sound := by
  obtain ⟨r, settled, rest⟩ := bind_eq_ok_iff.1 taken
  have sound := sound_settle sound settled
  cases value with
  | none =>
    cases rest
    exact sound
  | some text =>
    obtain ⟨d, entered, made⟩ := bind_eq_ok_iff.1 rest
    cases made
    exact sound.enter entered

theorem sound_takeFlag {p : Parameter} (sound : r.draft.Sound) (taken : r.takeFlag p = .ok r') :
    r'.draft.Sound := by
  obtain ⟨r, settled, rest⟩ := bind_eq_ok_iff.1 taken
  obtain ⟨d, entered, made⟩ := bind_eq_ok_iff.1 rest
  cases made
  exact (sound_settle sound settled).enter entered

theorem sound_takeLong {name : String} {value : Option String} (sound : r.draft.Sound)
    (taken : r.takeLong name value = .ok r') : r'.draft.Sound := by
  unfold takeLong at taken
  split at taken
  next => cases taken
  next p _ =>
    split at taken
    next => exact sound_takeOption sound taken
    next =>
      cases value with
      | none => exact sound_takeFlag sound taken
      | some text => cases taken

theorem sound_takeShort {name : Char} {value : Option String} (sound : r.draft.Sound)
    (taken : r.takeShort name value = .ok r') : r'.draft.Sound := by
  unfold takeShort at taken
  split at taken
  next => cases taken
  next p _ =>
    split at taken
    next => exact sound_takeOption sound taken
    next => exact sound_takeFlag sound taken

theorem sound_take {arg : String} (sound : r.draft.Sound) (taken : r.take arg = .ok r') :
    r'.draft.Sound := by
  unfold take at taken
  split at taken
  next => exact sound_takePlain sound taken
  next =>
    split at taken
    next =>
      cases taken
      exact sound
    next => exact sound_takeLong sound taken
    next => exact sound_takeShort sound taken
    next =>
      cases taken
      exact sound
    next => exact sound_takePlain sound taken

theorem sound_run {args : List String} (sound : r.draft.Sound)
    (taken : args.foldlM take r = .ok r') : r'.draft.Sound := by
  induction args generalizing r with
  | nil =>
    cases taken
    exact sound
  | cons arg rest ih =>
    obtain ⟨next, first, others⟩ := bind_eq_ok_iff.1 taken
    exact ih (sound_take sound first) others

end Reader

structure Settings.InRange (s : Settings) : Prop where
  rom : s.rom ≠ ""
  clockRate : 1 ≤ s.clockRate ∧ s.clockRate ≤ 4294967295
  scale : s.scale ∈ [1, 2, 4, 8, 16, 32]
  seed : ∀ n ∈ s.seed, n < UInt64.size

theorem Draft.Sound.finish {d : Draft} {s : Settings} (sound : d.Sound)
    (finished : d.finish = .ok s) : s.InRange := by
  unfold Draft.finish at finished
  split at finished
  next => cases finished
  next rom given =>
    cases finished
    constructor
    · exact sound.rom rom given
    · cases rate : d.clockRate with
      | none => exact (by decide : 1 ≤ defaultRate ∧ defaultRate ≤ 4294967295)
      | some n => exact sound.clockRate n rate
    · cases scale : d.scale with
      | none => exact (by decide : defaultScale ∈ [1, 2, 4, 8, 16, 32])
      | some n => exact sound.scale n scale
    · exact sound.seed

theorem inRange_of_read {args : List String} {s : Settings} (accepted : read args = .ok s) :
    s.InRange := by
  obtain ⟨r, taken, rest⟩ := bind_eq_ok_iff.1 accepted
  obtain ⟨r', settled, finished⟩ := bind_eq_ok_iff.1 rest
  have sound := Reader.sound_run Draft.sound_empty taken
  exact (Reader.sound_settle sound settled).finish finished

end Chip8.CommandLine
