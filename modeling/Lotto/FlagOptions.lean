import Mathlib.Data.List.Basic
import Lotto.Base

namespace Lotto.FlagOptions

open Library.FaultRun

abbrev Text := List Char

def flagNone : Nat := 0
def maxOptions : Nat := 1024

inductive Value where
  | bool (on : Bool)
  | uint64 (value : UInt64)
  | double (bits : UInt64)
  | string (text : Text)
  | any (pointer : UInt64)
  | none
  deriving DecidableEq, Repr

structure FlagVal where
  value : Value
  isDefault : Bool
  forceNoDefault : Bool
  deriving DecidableEq, Repr

structure OptionEntry where
  opt : Text
  longOpt : Text
  val : FlagVal
  hasConverter : Bool
  hasCallback : Bool
  deriving DecidableEq, Repr

def OptionEntry.Conflict (a b : OptionEntry) : Prop :=
  (a.opt ≠ [] ∧ b.opt ≠ [] ∧ a.opt = b.opt) ∨
    (a.longOpt ≠ [] ∧ b.longOpt ≠ [] ∧ a.longOpt = b.longOpt)

instance (a b : OptionEntry) : Decidable (a.Conflict b) := inferInstanceAs (Decidable (_ ∨ _))

def visibleChar (c : Char) : Bool := 32 < c.toNat && c.toNat < 127

/-- The registered flags, from number 1 on. `FLAG_HELP` and `FLAG_LIST_FLAGS` are registered with the flag
manager itself. -/
structure Registry where
  options : List OptionEntry
  room : options.length < maxOptions
  named : ∀ e ∈ options, e.opt ≠ [] ∨ e.longOpt ≠ []
  distinct : options.Pairwise fun a b => ¬a.Conflict b
  visible : (options.all fun e => e.opt.all visibleChar) = true
  help : Nat
  listFlags : Nat
  helpOpt : 0 < help ∧ (options[help - 1]?).map OptionEntry.opt = some ['h']
  listFlagsOpt : 0 < listFlags ∧ (options[listFlags - 1]?).map OptionEntry.opt = some []

def Registry.entry (reg : Registry) (f : Nat) : Option OptionEntry :=
  if f = flagNone then none else reg.options[f - 1]?

/-- `opt[0]`, which is 0 for an option without a short form. -/
def OptionEntry.letter (e : OptionEntry) : Nat := (e.opt.head?.map Char.toNat).getD 0

structure SpecialFlags where
  verbose : Nat
  recordGranularity : Nat
  enableModule : Nat
  disableModule : Nat

abbrev Flags := Nat → FlagVal

/-- What the parser calls: the conversions of the C library and of the registered converters, and the
update of the module flags. -/
structure Conversions where
  strtoul : Text → UInt64
  strtod : Text → Option UInt64
  bitsFrom : Nat → Text → UInt64
  moduleEnableFlagsUpdate : Flags → Nat → Text → Nat × Flags

section Offering

/-- `_entry_has_argument`. -/
def OptionEntry.hasArgument (e : OptionEntry) : Bool :=
  if e.opt.head? = some 'v' ∧ e.longOpt = "verbose".toList then false
  else
    match e.val.value with
    | .bool _ => e.hasConverter
    | _ => true

structure LongOption where
  name : Text
  hasArg : Bool
  val : Nat
  deriving DecidableEq, Repr

def makeOpt (reg : Registry) (opts : Text) (b : Nat) : Except Fault (Text × LongOption) :=
  match reg.entry b with
  | none => .error .flagUnknown
  | some e =>
      let opts :=
        if e.opt ≠ [] then
          if e.hasArgument then opts ++ e.opt ++ [':'] else opts ++ e.opt
        else opts
      .ok (opts, ⟨e.longOpt, e.hasArgument, b⟩)

def flagSelAdd (sel : List Nat) (b : Nat) : List Nat := if b ∈ sel then sel else sel ++ [b]

def runtimeFlags : Nat → List OptionEntry → List Nat
  | _, [] => []
  | f, e :: es => if e.hasCallback then f :: runtimeFlags (f + 1) es else runtimeFlags (f + 1) es

def offeredFlags (reg : Registry) (runtimeSel : Bool) (sel : List Nat) : List Nat :=
  sel ++ if runtimeSel then runtimeFlags 1 reg.options else []

def makeOpts (reg : Registry) : List Nat → Text → Except Fault (Text × List LongOption)
  | [], opts => .ok (opts, [])
  | b :: bs, opts => do
      let (opts, long) ← makeOpt reg opts b
      let (opts, longs) ← makeOpts reg bs opts
      .ok (opts, long :: longs)

def flagsOpts (reg : Registry) (runtimeSel : Bool) (sel : List Nat) :
    Except Fault (Text × List LongOption) := do
  check (!runtimeSel || sel.all fun f => (reg.entry f).all fun e => !e.hasCallback) .flagCallback
  makeOpts reg (offeredFlags reg runtimeSel sel) []

end Offering

section Parsing

def flagsWithOptLoop (o : Nat) : Nat → List OptionEntry → Nat
  | _, [] => flagNone
  | b, e :: es => if e.letter = o ∨ b = o then b else flagsWithOptLoop o (b + 1) es

def flagsWithOpt (reg : Registry) (o : Nat) : Nat := flagsWithOptLoop o 1 reg.options

def enabledFrom (src : Text) : Except Fault Bool := do
  let isTrue := decide (src ∈ ["enable".toList, "on".toList, "true".toList, "1".toList])
  let isFalse := decide (src ∈ ["disable".toList, "off".toList, "false".toList, "0".toList])
  check (isTrue != isFalse) .flagType
  .ok isTrue

def flagsSetByOpt (flags : Flags) (f : Nat) (value : Value) : Flags :=
  fun g => if g = f then { flags f with value := value, isDefault := false } else flags g

/-- The switch over the type of a flag in `flags_parse`: the flags after the argument, or `none` for
`FLAGS_PARSE_ERROR`. -/
def applyArgument (special : SpecialFlags) (conv : Conversions) (e : OptionEntry) (fnum : Nat)
    (optarg : Option Text) (flags : Flags) : Except Fault (Option Flags) :=
  match (flags fnum).value with
  | .uint64 old =>
      if fnum = special.verbose ∧ optarg = none then
        .ok (some (flagsSetByOpt flags fnum (.uint64 (old + 1))))
      else
        let text := optarg.getD []
        let uvalue := if e.hasConverter then conv.bitsFrom fnum text else conv.strtoul text
        if fnum = special.recordGranularity ∧ uvalue = ~~~0 then .ok none
        else
          let uvalue := if fnum = special.recordGranularity then uvalue ||| old else uvalue
          .ok (some (flagsSetByOpt flags fnum (.uint64 uvalue)))
  | .double _ =>
      match conv.strtod (optarg.getD []) with
      | none => .ok none
      | some bits => .ok (some (flagsSetByOpt flags fnum (.double bits)))
  | .bool old =>
      match optarg with
      | none => .ok (some (flagsSetByOpt flags fnum (.bool !old)))
      | some text =>
          if e.hasConverter then do
            let on ← enabledFrom text
            .ok (some (flagsSetByOpt flags fnum (.bool on)))
          else .ok (some (flagsSetByOpt flags fnum (.bool !old)))
  | .string _ =>
      if fnum = special.enableModule ∨ fnum = special.disableModule then
        let r := conv.moduleEnableFlagsUpdate flags fnum (optarg.getD [])
        if r.1 ≠ 0 then .ok none else .ok (some r.2)
      else .ok (some (flagsSetByOpt flags fnum (.string (optarg.getD []))))
  | .any _ => .error .flagType
  | .none => .error .flagType

inductive Parsed where
  | help
  | listFlags
  | error
  | unsupported
  | applied (fnum : Nat) (result : Except Fault (Option Flags))

def applyFlag (reg : Registry) (special : SpecialFlags) (conv : Conversions) (fnum : Nat)
    (optarg : Option Text) (flags : Flags) : Parsed :=
  if fnum = reg.help then .help
  else if fnum = reg.listFlags then .listFlags
  else
    .applied fnum (match reg.entry fnum with
      | none => .error .flagUnknown
      | some e => applyArgument special conv e fnum optarg flags)

structure GetoptResult where
  c : Nat
  curLongoptVal : Nat
  optarg : Option Text
  deriving DecidableEq, Repr

def parseRound (reg : Registry) (special : SpecialFlags) (conv : Conversions) (r : GetoptResult)
    (flags : Flags) : Parsed :=
  if r.c = 'h'.toNat then .help
  else if r.c = '?'.toNat then .error
  else
    let fnum := if r.curLongoptVal ≠ 0 then r.curLongoptVal else flagsWithOpt reg r.c
    if fnum = flagNone then .unsupported
    else applyFlag reg special conv fnum r.optarg flags

/-- The loop of `flags_parse` over the results of getopt, with the code that it returns. -/
def parseLoop (reg : Registry) (special : SpecialFlags) (conv : Conversions) :
    List GetoptResult → Flags → Except Fault (Int × Flags)
  | [], flags => .ok (0, flags)
  | r :: rs, flags =>
      match parseRound reg special conv r flags with
      | .help => .ok (-1, flags)
      | .listFlags => .ok (-2, flags)
      | .error => .ok (1, flags)
      | .unsupported => parseLoop reg special conv rs flags
      | .applied _ result => do
          match ← result with
          | none => .ok (1, flags)
          | some flags => parseLoop reg special conv rs flags

end Parsing

variable {reg : Registry} {special : SpecialFlags} {conv : Conversions} {e : OptionEntry}
  {es : List OptionEntry} {f b : Nat} {o : Nat} {c : Char} {flags : Flags} {sel : List Nat}

section Lookup

theorem flagsWithOptLoop_eq_iff (k : Nat) (here : es[k]? = some e) (letter : e.letter = o) (b : Nat) :
    flagsWithOptLoop o b es = b + k ↔
      ∀ j < k, ∀ e', es[j]? = some e' → e'.letter ≠ o ∧ b + j ≠ o := by
  induction es generalizing k b with
  | nil => cases here
  | cons first es ih =>
      rw [flagsWithOptLoop]
      cases k with
      | zero =>
          cases here
          rw [if_pos (.inl letter)]
          exact iff_of_true rfl fun j below => absurd below (Nat.not_lt_zero j)
      | succ k =>
          rw [List.getElem?_cons_succ] at here
          by_cases found : first.letter = o ∨ b = o
          · rw [if_pos found]
            refine iff_of_false (by omega) fun clear => ?_
            obtain ⟨letter', number⟩ := clear 0 (Nat.succ_pos k) first rfl
            exact found.elim letter' number
          · rw [if_neg found, Nat.add_comm k 1, ← Nat.add_assoc, ih k here (b + 1)]
            constructor
            · intro clear j below e' there
              cases j with
              | zero =>
                  cases there
                  exact not_or.mp found
              | succ j =>
                  rw [List.getElem?_cons_succ] at there
                  obtain ⟨letter', number⟩ := clear j (by omega) e' there
                  exact ⟨letter', by omega⟩
            · intro clear j below e' there
              obtain ⟨letter', number⟩ :=
                clear (j + 1) (by omega) e' (by rw [List.getElem?_cons_succ]; exact there)
              exact ⟨letter', by omega⟩

theorem Registry.entry_eq_some :
    reg.entry f = some e ↔ 0 < f ∧ reg.options[f - 1]? = some e := by
  rw [Registry.entry, flagNone]
  by_cases none : f = 0
  · rw [if_pos none]
    exact iff_of_false (fun found => by cases found) fun both => by omega
  · rw [if_neg none]
    exact ⟨fun found => ⟨Nat.pos_of_ne_zero none, found⟩, fun both => both.2⟩

def FirstWith (reg : Registry) (f : Nat) (o : Nat) : Prop :=
  ∀ b < f, ∀ e, reg.entry b = some e → e.letter ≠ o ∧ b ≠ o

theorem flagsWithOpt_eq_iff (entry : reg.entry f = some e) (letter : e.letter = o) :
    flagsWithOpt reg o = f ↔ FirstWith reg f o := by
  obtain ⟨positive, here⟩ := Registry.entry_eq_some.mp entry
  have first := flagsWithOptLoop_eq_iff (f - 1) here letter 1
  rw [Nat.add_sub_cancel' positive] at first
  rw [flagsWithOpt, first]
  constructor
  · intro clear b below e' entry'
    obtain ⟨positive', there⟩ := Registry.entry_eq_some.mp entry'
    obtain ⟨letter', number⟩ := clear (b - 1) (by omega) e' there
    exact ⟨letter', by omega⟩
  · intro clear j below e' there
    have entry' : reg.entry (1 + j) = some e' :=
      Registry.entry_eq_some.mpr ⟨by omega, by rwa [Nat.add_sub_cancel_left]⟩
    exact clear (1 + j) (by omega) e' entry'

theorem letter_of_head (head : e.opt.head? = some c) : e.letter = c.toNat := by
  rw [OptionEntry.letter, head]
  rfl

end Lookup

section Reaching

/-- The selection of a command, to which the parser adds the flags for help and for the list. -/
def parseSel (reg : Registry) (sel : List Nat) : List Nat :=
  flagSelAdd (flagSelAdd sel reg.help) reg.listFlags

def Registry.shortLetter (reg : Registry) (f : Nat) : Option Char :=
  (reg.entry f).bind fun e => e.opt.head?

def UniqueLetters (reg : Registry) (offered : List Nat) : Prop :=
  ∀ f ∈ offered, ∀ g ∈ offered,
    (reg.shortLetter f).isSome = true → reg.shortLetter f = reg.shortLetter g → f = g

instance (reg : Registry) (offered : List Nat) : Decidable (UniqueLetters reg offered) :=
  inferInstanceAs (Decidable (∀ f ∈ offered, _))

/-- The letter is the one for help, or it is not the error value of getopt and no earlier flag has it
first or has its code as its number. -/
def Clear (reg : Registry) (f : Nat) (c : Char) : Prop :=
  c = 'h' ∨ (c ≠ '?' ∧ FirstWith reg f c.toNat)

theorem mem_flagSelAdd (sel : List Nat) (b : Nat) : b ∈ flagSelAdd sel b := by
  rw [flagSelAdd]
  split
  · assumption
  · exact List.mem_append_right _ List.mem_cons_self

theorem flagSelAdd_subset (b : Nat) : sel ⊆ flagSelAdd sel b := by
  rw [flagSelAdd]
  split
  · exact fun _ member => member
  · exact List.subset_append_left _ _

theorem help_offered (reg : Registry) (runtimeSel : Bool) (sel : List Nat) :
    reg.help ∈ offeredFlags reg runtimeSel (parseSel reg sel) :=
  List.mem_append_left _ (flagSelAdd_subset _ (mem_flagSelAdd sel _))

theorem help_entry (reg : Registry) : ∃ e, reg.entry reg.help = some e ∧ e.opt = ['h'] := by
  obtain ⟨positive, opt⟩ := reg.helpOpt
  obtain ⟨e, here, opt⟩ := Option.map_eq_some_iff.mp opt
  exact ⟨e, Registry.entry_eq_some.mpr ⟨positive, here⟩, opt⟩

theorem listFlags_entry (reg : Registry) : ∃ e, reg.entry reg.listFlags = some e ∧ e.opt = [] := by
  obtain ⟨positive, opt⟩ := reg.listFlagsOpt
  obtain ⟨e, here, opt⟩ := Option.map_eq_some_iff.mp opt
  exact ⟨e, Registry.entry_eq_some.mpr ⟨positive, here⟩, opt⟩

/-- Another flag than the one for help or for the list gets its argument under its own number. -/
theorem applyFlag_ordinary (entry : reg.entry f = some e) (letter : e.opt.head? = some c)
    (ordinary : c ≠ 'h') (optarg : Option Text) (flags : Flags) :
    applyFlag reg special conv f optarg flags =
      .applied f (applyArgument special conv e f optarg flags) := by
  have notHelp : f ≠ reg.help := by
    rintro rfl
    obtain ⟨e', entry', opt⟩ := help_entry reg
    cases entry.symm.trans entry'
    rw [opt] at letter
    cases letter
    exact ordinary rfl
  have notList : f ≠ reg.listFlags := by
    rintro rfl
    obtain ⟨e', entry', opt⟩ := listFlags_entry reg
    cases entry.symm.trans entry'
    rw [opt] at letter
    cases letter
  rw [applyFlag, if_neg notHelp, if_neg notList, entry]

theorem applyFlag_number {g : Nat} {optarg : Option Text} {result : Except Fault (Option Flags)}
    (same : applyFlag reg special conv g optarg flags = .applied f result) : g = f := by
  rw [applyFlag] at same
  split at same
  · cases same
  · split at same
    · cases same
    · injection same

/-- A letter other than that for help or the error value reaches a flag with this letter exactly when
the lookup yields the flag. -/
theorem parseRound_reaches_iff (short : reg.shortLetter f = some c) (help : c ≠ 'h')
    (question : c ≠ '?') (optarg : Option Text) (flags : Flags) :
    parseRound reg special conv ⟨c.toNat, 0, optarg⟩ flags =
      applyFlag reg special conv f optarg flags ↔ flagsWithOpt reg c.toNat = f := by
  obtain ⟨e, entry, letter⟩ := Option.bind_eq_some_iff.mp short
  have code : c.toNat ≠ 'h'.toNat := fun same => help (Char.toNat_inj.mp same)
  have code' : c.toNat ≠ '?'.toNat := fun same => question (Char.toNat_inj.mp same)
  rw [parseRound, if_neg code, if_neg code', applyFlag_ordinary entry letter help]
  simp only [ne_eq, not_true_eq_false, if_false]
  constructor
  · intro same
    split at same
    · cases same
    · exact applyFlag_number same
  · intro same
    have positive : f ≠ flagNone := Nat.ne_of_gt (Registry.entry_eq_some.mp entry).1
    rw [same, if_neg positive, applyFlag_ordinary entry letter help]

theorem applyArgument_frame {fnum g : Nat} {optarg : Option Text} {flags' : Flags}
    (done : applyArgument special conv e fnum optarg flags = .ok (some flags'))
    (noEnable : fnum ≠ special.enableModule) (noDisable : fnum ≠ special.disableModule)
    (other : g ≠ fnum) : flags' g = flags g := by
  have set (value : Value) : flagsSetByOpt flags fnum value g = flags g := if_neg other
  rw [applyArgument] at done
  cases kind : (flags fnum).value with
  | uint64 old =>
      simp only [kind] at done
      by_cases counted : fnum = special.verbose ∧ optarg = none
      · rw [if_pos counted] at done
        cases done
        exact set _
      · rw [if_neg counted] at done
        generalize (if e.hasConverter = true then conv.bitsFrom fnum (optarg.getD [])
          else conv.strtoul (optarg.getD [])) = uvalue at done
        by_cases invalid : fnum = special.recordGranularity ∧ uvalue = ~~~0
        · rw [if_pos invalid] at done
          cases done
        · rw [if_neg invalid] at done
          cases done
          exact set _
  | double bits =>
      simp only [kind] at done
      split at done
      · cases done
      · cases done
        exact set _
  | bool old =>
      simp only [kind] at done
      split at done
      · cases done
        exact set _
      · split at done
        · obtain ⟨on, -, done⟩ := bind_eq_ok.mp done
          cases done
          exact set _
        · cases done
          exact set _
  | string text =>
      simp only [kind, noEnable, noDisable, or_self, if_false] at done
      cases done
      exact set _
  | any pointer =>
      simp only [kind] at done
      cases done
  | none =>
      simp only [kind] at done
      cases done

/-- A letter reaches the offered flag that was registered with it exactly when it is clear, and its
argument then changes no other flag, the pair of module flags apart. -/
theorem short_option_reaches_iff (reg : Registry) (special : SpecialFlags) (conv : Conversions)
    (runtimeSel : Bool) (sel : List Nat) (f : Nat) (c : Char)
    (optarg : Option Text) (flags : Flags)
    (unique : UniqueLetters reg (offeredFlags reg runtimeSel (parseSel reg sel)))
    (offered : f ∈ offeredFlags reg runtimeSel (parseSel reg sel))
    (short : reg.shortLetter f = some c) :
    (parseRound reg special conv ⟨c.toNat, 0, optarg⟩ flags =
        applyFlag reg special conv f optarg flags ↔ Clear reg f c) ∧
      ∀ flags' g, applyFlag reg special conv f optarg flags = .applied f (.ok (some flags')) →
        f ≠ special.enableModule → f ≠ special.disableModule → g ≠ f → flags' g = flags g := by
  obtain ⟨e, entry, letter⟩ := Option.bind_eq_some_iff.mp short
  constructor
  · rw [Clear]
    by_cases help : c = 'h'
    · subst help
      obtain ⟨e', entry', opt⟩ := help_entry reg
      have helps : reg.shortLetter reg.help = some 'h' := by
        rw [Registry.shortLetter, entry', Option.bind_some, opt]
        rfl
      have same : f = reg.help :=
        unique f offered reg.help (help_offered reg runtimeSel sel) (by rw [short]; rfl)
          (short.trans helps.symm)
      rw [parseRound, if_pos rfl, applyFlag, if_pos same]
      exact iff_of_true rfl (.inl rfl)
    · by_cases question : c = '?'
      · subst question
        rw [parseRound, if_neg (show '?'.toNat ≠ 'h'.toNat by decide), if_pos rfl,
          applyFlag_ordinary entry letter help]
        exact iff_of_false (fun same => by cases same)
          fun clear => clear.elim help fun both => both.1 rfl
      · rw [or_iff_right help, and_iff_right question,
          ← flagsWithOpt_eq_iff entry (letter_of_head letter)]
        exact parseRound_reaches_iff short help question optarg flags
  · intro flags' g done noEnable noDisable other
    rw [applyFlag] at done
    split at done
    · cases done
    · split at done
      · cases done
      · rw [entry] at done
        injection done with _ applied
        exact applyArgument_frame applied noEnable noDisable other

theorem makeOpts_offers {offered : List Nat} {opts opts' : Text} {longs : List LongOption}
    (made : makeOpts reg offered opts = .ok (opts', longs)) :
    longs.map LongOption.val = offered ∧ (∀ c ∈ opts, c ∈ opts') ∧
      ∀ f ∈ offered, ∀ c, reg.shortLetter f = some c → c ∈ opts' := by
  induction offered generalizing opts opts' longs with
  | nil =>
      cases made
      exact ⟨rfl, fun _ member => member, by simp⟩
  | cons b offered ih =>
      obtain ⟨⟨mid, long⟩, first, made⟩ := bind_eq_ok.mp made
      obtain ⟨⟨opts₂, longs₂⟩, rest, made⟩ := bind_eq_ok.mp made
      cases made
      obtain ⟨numbers, kept, letters⟩ := ih rest
      unfold makeOpt at first
      cases entry : reg.entry b with
      | none =>
          rw [entry] at first
          cases first
      | some e =>
          rw [entry] at first
          cases first
          refine ⟨by rw [List.map_cons, numbers], ?_, ?_⟩
          · intro c member
            apply kept
            split_ifs <;> simp [member]
          · intro f member c short
            rcases List.mem_cons.mp member with rfl | member
            · rw [Registry.shortLetter, entry] at short
              have inside : c ∈ e.opt := List.mem_of_mem_head? short
              have some : e.opt ≠ [] := List.ne_nil_of_mem inside
              apply kept
              rw [if_pos some]
              split_ifs <;> simp [inside]
            · exact letters f member c short

theorem flagsOpts_offers {runtimeSel : Bool} {opts : Text} {longs : List LongOption}
    (made : flagsOpts reg runtimeSel sel = .ok (opts, longs)) :
    longs.map LongOption.val = offeredFlags reg runtimeSel sel ∧
      ∀ f ∈ offeredFlags reg runtimeSel sel, ∀ c, reg.shortLetter f = some c → c ∈ opts := by
  obtain ⟨-, -, made⟩ := bind_eq_ok.mp made
  obtain ⟨numbers, -, letters⟩ := makeOpts_offers made
  exact ⟨numbers, letters⟩

/-- A result of getopt leaves all flags alone that it is not taken for, the module flags apart. -/
def Spares (reg : Registry) (special : SpecialFlags) (conv : Conversions) (g : Nat) (r : GetoptResult) :
    Prop :=
  ∀ flags f result, parseRound reg special conv r flags = .applied f result →
    f ≠ g ∧ f ≠ special.enableModule ∧ f ≠ special.disableModule

theorem applyFlag_applied {g : Nat} {optarg : Option Text} {flags' : Flags}
    (applied : applyFlag reg special conv g optarg flags = .applied f (.ok (some flags'))) :
    ∃ e, applyArgument special conv e f optarg flags = .ok (some flags') := by
  rw [applyFlag] at applied
  split_ifs at applied
  injection applied with number result
  subst number
  split at result
  · cases result
  · exact ⟨_, result⟩

theorem parseRound_applied {r : GetoptResult} {flags' : Flags}
    (applied : parseRound reg special conv r flags = .applied f (.ok (some flags'))) :
    ∃ e, applyArgument special conv e f r.optarg flags = .ok (some flags') := by
  rw [parseRound] at applied
  split at applied
  · cases applied
  · split at applied
    · cases applied
    · dsimp only at applied
      generalize (if r.curLongoptVal ≠ 0 then r.curLongoptVal else flagsWithOpt reg r.c) = fnum at applied
      split at applied
      · cases applied
      · exact applyFlag_applied applied

/-- Over all results of getopt, `flags_parse` changes only the flags that a result is taken for. -/
theorem parseLoop_frame {rs : List GetoptResult} {g : Nat} {code : Int} {flags' : Flags}
    (spared : ∀ r ∈ rs, Spares reg special conv g r)
    (parsed : parseLoop reg special conv rs flags = .ok (code, flags')) : flags' g = flags g := by
  induction rs generalizing flags with
  | nil =>
      cases parsed
      rfl
  | cons r rs ih =>
      have rest : ∀ r ∈ rs, Spares reg special conv g r :=
        fun r member => spared r (List.mem_cons_of_mem _ member)
      rw [parseLoop] at parsed
      cases round : parseRound reg special conv r flags with
      | help | listFlags | error =>
          rw [round] at parsed
          cases parsed
          rfl
      | unsupported =>
          rw [round] at parsed
          exact ih rest parsed
      | applied f result =>
          rw [round] at parsed
          obtain ⟨other, noEnable, noDisable⟩ := spared r List.mem_cons_self flags f result round
          obtain ⟨outcome, done, parsed⟩ := bind_eq_ok.mp parsed
          subst done
          cases outcome with
          | none =>
              cases parsed
              rfl
          | some flags₁ =>
              obtain ⟨e, applied⟩ := parseRound_applied round
              rw [ih rest parsed]
              exact applyArgument_frame applied noEnable noDisable (Ne.symm other)

theorem input_flag_reached : ∃ (reg : Registry) (special : SpecialFlags) (conv : Conversions)
    (flags : Flags), reg.options.length = 3 ∧
      (parseRound reg special conv ⟨'i'.toNat, 0, some []⟩ flags =
          applyFlag reg special conv 3 (some []) flags ↔ Clear reg 3 'i') ∧
      ∀ flags' g, applyFlag reg special conv 3 (some []) flags = .applied 3 (.ok (some flags')) →
        3 ≠ special.enableModule → 3 ≠ special.disableModule → g ≠ 3 → flags' g = flags g :=
  ⟨{ options := [⟨['h'], ['x'], ⟨.bool false, true, false⟩, false, false⟩,
        ⟨[], ['l'], ⟨.bool false, true, false⟩, false, false⟩,
        ⟨['i'], ['i'], ⟨.string [], true, false⟩, false, false⟩]
     room := by decide
     named := by decide
     distinct := by decide
     visible := rfl
     help := 1
     listFlags := 2
     helpOpt := by decide
     listFlagsOpt := by decide },
    ⟨10, 11, 12, 13⟩, ⟨fun _ => 0, fun _ => none, fun _ _ => 0, fun flags _ _ => (0, flags)⟩,
    fun _ => ⟨.string [], true, false⟩, rfl,
    short_option_reaches_iff _ _ _ false [3] 3 'i' _ _ (by decide) (by decide) rfl⟩

/-- With 65 other flags before it, `-A` sets the flag with the number 65. -/
theorem letter_taken_for_number : ∃ reg : Registry,
    UniqueLetters reg (offeredFlags reg false (parseSel reg [66])) ∧
      66 ∈ offeredFlags reg false (parseSel reg [66]) ∧ reg.shortLetter 66 = some 'A' ∧
      flagsWithOpt reg 'A'.toNat = 65 ∧
      ∀ special conv optarg flags, parseRound reg special conv ⟨'A'.toNat, 0, optarg⟩ flags ≠
        applyFlag reg special conv 66 optarg flags := by
  refine ⟨{
    options := [⟨['h'], ['x'], ⟨.bool false, true, false⟩, false, false⟩,
        ⟨[], ['l'], ⟨.bool false, true, false⟩, false, false⟩] ++
      ((List.range 63).map fun i => ⟨[], [Char.ofNat (97 + i % 26), Char.ofNat (97 + i / 26)],
        ⟨.bool false, true, false⟩, false, false⟩) ++
      [⟨['A'], ['z', 'z'], ⟨.bool false, true, false⟩, false, false⟩]
    room := by decide +kernel
    named := by decide +kernel
    distinct := by decide +kernel
    visible := by decide +kernel
    help := 1
    listFlags := 2
    helpOpt := by decide +kernel
    listFlagsOpt := by decide +kernel }, by decide +kernel, by decide +kernel, by decide +kernel,
    by decide +kernel, ?_⟩
  intro special conv optarg flags same
  have taken := (parseRound_reaches_iff (by decide +kernel) (by decide) (by decide) optarg flags).mp same
  exact absurd taken (by decide +kernel)

end Reaching

end Lotto.FlagOptions
