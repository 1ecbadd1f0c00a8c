import Lotto.Preload

namespace Lotto.PreloadSwitch

open Library.FaultRun Library.Fields Preload

variable {isDbg : Bool} {path dir base name result result' o o' q : Text} {paths pieces : List Text}
  {c : Char} {k : Nat} {s s' : Statics}

section Names

theorem strrchr_none : strrchr path = none ↔ '/' ∉ path := by
  induction path with
  | nil => simp [strrchr]
  | cons c path ih =>
      rw [strrchr]
      cases inner : strrchr path with
      | some r =>
          rw [inner] at ih
          have slash : '/' ∈ path := by simpa using ih
          simp [slash]
      | none =>
          have none_behind := ih.mp inner
          by_cases here : c = '/'
          · simp [here]
          · simp [here, none_behind, Ne.symm here]

theorem strrchr_some (found : strrchr path = some (dir, base)) :
    path = dir ++ '/' :: base ∧ '/' ∉ base := by
  induction path generalizing dir with
  | nil => cases found
  | cons c path ih =>
      rw [strrchr] at found
      cases inner : strrchr path with
      | some r =>
          rw [inner] at found
          cases found
          obtain ⟨whole, clean⟩ := ih inner
          exact ⟨congrArg (c :: ·) whole, clean⟩
      | none =>
          rw [inner] at found
          simp only at found
          split at found
          · rename_i here
            cases found
            exact ⟨by rw [here, List.nil_append], strrchr_none.mp inner⟩
          · cases found

theorem strrchr_join (clean : '/' ∉ base) : strrchr (dir ++ '/' :: base) = some (dir, base) := by
  induction dir with
  | nil => rw [List.nil_append, strrchr, strrchr_none.mpr clean]; rfl
  | cons c dir ih => rw [List.cons_append, strrchr, ih]

theorem strip_some (named : strip base = some name) :
    base = runtimeDbgModule ++ name ∨ base = runtimeModule ++ name := by
  rw [strip] at named
  split at named
  · rename_i debug
    obtain ⟨rest, rfl⟩ := List.isPrefixOf_iff_prefix.mp debug
    cases named
    exact .inl (by rw [List.drop_left])
  · split at named
    · rename_i release
      obtain ⟨rest, rfl⟩ := List.isPrefixOf_iff_prefix.mp release
      cases named
      exact .inr (by rw [List.drop_left])
    · cases named

theorem strip_debug (name : Text) : strip (runtimeDbgModule ++ name) = some name := by
  rw [strip, if_pos (List.isPrefixOf_iff_prefix.mpr (List.prefix_append _ _)), List.drop_left]

theorem strip_release (other : ¬['d', 'b', 'g', '-'] <+: name) :
    strip (runtimeModule ++ name) = some name := by
  have release : ¬(runtimeDbgModule.isPrefixOf (runtimeModule ++ name) = true) := by
    rw [List.isPrefixOf_iff_prefix, show runtimeDbgModule = runtimeModule ++ ['d', 'b', 'g', '-'] from rfl,
      List.prefix_append_right_inj]
    exact other
  rw [strip, if_neg release, if_pos (List.isPrefixOf_iff_prefix.mpr (List.prefix_append _ _)),
    List.drop_left]

theorem strip_clean (named : strip base = some name) (clean : c ∉ base) : c ∉ name := by
  obtain rfl | rfl := strip_some named <;> exact fun member => clean (List.mem_append_right _ member)

theorem plugin_clean (separator : c = '/' ∨ c = ':') (clean : c ∉ name) : c ∉ plugin isDbg name := by
  have debug : '/' ∉ runtimeDbgModule ∧ ':' ∉ runtimeDbgModule := by decide
  have release : '/' ∉ runtimeModule ∧ ':' ∉ runtimeModule := by decide
  rw [plugin, List.mem_append, not_or]
  refine ⟨?_, clean⟩
  cases isDbg <;> obtain rfl | rfl := separator
  · exact release.1
  · exact release.2
  · exact debug.1
  · exact debug.2

theorem modulePath_eq : modulePath isDbg dir name = dir ++ '/' :: plugin isDbg name := by
  cases isDbg <;> simp [modulePath, plugin, runtimeModule, runtimeDbgModule]

theorem variantName_strip (named : strip base = some name) :
    variantName isDbg base = plugin isDbg name := by
  have other : ¬(base = liblottoRuntime ∨ base = liblottoRuntimeDbg) := by
    rintro (rfl | rfl)
    · rw [show strip liblottoRuntime = none by decide] at named
      cases named
    · rw [show strip liblottoRuntimeDbg = none by decide] at named
      cases named
  rw [variantName, if_neg other, named]

theorem variant_plugin (slash : strrchr path = some (dir, base)) (named : strip base = some name) :
    variant isDbg path = modulePath isDbg dir name := by
  rw [variant, slash, modulePath_eq]
  exact congrArg (fun name => dir ++ '/' :: name) (variantName_strip named)

theorem variantName_clean (separator : c = '/' ∨ c = ':') (clean : c ∉ base) :
    c ∉ variantName isDbg base := by
  have names : '/' ∉ liblottoRuntimeDbg ∧ ':' ∉ liblottoRuntimeDbg ∧ '/' ∉ liblottoRuntime ∧
      ':' ∉ liblottoRuntime := by decide
  rw [variantName]
  split
  · cases isDbg <;> obtain rfl | rfl := separator
    · exact names.2.2.1
    · exact names.2.2.2
    · exact names.1
    · exact names.2.1
  · cases named : strip base with
    | none => exact clean
    | some name => exact plugin_clean separator (strip_clean named clean)

theorem strrchr_variant (slash : strrchr path = some (dir, base)) :
    strrchr (variant isDbg path) = some (dir, variantName isDbg base) := by
  rw [variant, slash]
  exact strrchr_join (variantName_clean (.inl rfl) (strrchr_some slash).2)

theorem modulePath_clean (dir_clean : ':' ∉ dir) (name_clean : ':' ∉ name) :
    ':' ∉ modulePath isDbg dir name := by
  rw [modulePath_eq, List.mem_append, List.mem_cons, not_or, not_or]
  exact ⟨dir_clean, by decide, plugin_clean (.inr rfl) name_clean⟩

end Names

section Loop

def flat (pieces : List Text) : Text := pieces.flatMap fun q => q ++ [':']

theorem flat_cons : flat (q :: pieces) = q ++ [':'] ++ flat pieces := rfl

theorem flat_eq (some_ : pieces ≠ []) : flat pieces = [':'].intercalate pieces ++ [':'] := by
  induction pieces with
  | nil => exact absurd rfl some_
  | cons q pieces ih =>
      cases pieces with
      | nil => simp [flat]
      | cons q' pieces =>
          rw [flat_cons, ih (List.cons_ne_nil _ _), List.intercalate_cons_cons]
          simp

theorem flat_length (proper : Proper ':' pieces) (member : q ∈ pieces) :
    q.length + 2 * pieces.length ≤ (flat pieces).length + 1 := by
  have all : ∀ qs : List Text, Proper ':' qs → 2 * qs.length ≤ (flat qs).length := by
    intro qs proper
    induction qs with
    | nil => exact Nat.le_refl _
    | cons q qs ih =>
        have rest := ih fun x member => proper x (List.mem_cons_of_mem _ member)
        have some_ := List.length_pos_of_ne_nil (proper q List.mem_cons_self).1
        simp only [flat_cons, List.length_append, List.length_cons, List.length_nil]
        omega
  induction pieces with
  | nil => exact absurd member List.not_mem_nil
  | cons q' pieces ih =>
      have tail : Proper ':' pieces := fun x member => proper x (List.mem_cons_of_mem _ member)
      have some_ := List.length_pos_of_ne_nil (proper q' List.mem_cons_self).1
      simp only [flat_cons, List.length_append, List.length_cons, List.length_nil]
      obtain rfl | later := List.mem_cons.mp member
      · have rest := all pieces tail
        omega
      · have rest := ih tail later
        omega

inductive Piece (isDbg : Bool) : Text → Text → Text → Text → Prop where
  | runtime {o : Text} (dbg : isDbg = true) : Piece isDbg liblottoRuntime o liblottoRuntimeDbg o
  | debug {o : Text} (dbg : isDbg = false) : Piece isDbg liblottoRuntimeDbg o liblottoRuntime o
  | plugin {path dir base name o : Text} (slash : strrchr path = some (dir, base))
      (named : strip base = some name) :
      Piece isDbg path o ((modulePath isDbg (dir ++ o.drop dir.length) name).take (maxListStr - 1))
        (dir ++ o.drop dir.length)

def Kept (isDbg : Bool) : List Text → Text → List Text → Text → Prop
  | [], o, [], o' => o' = o
  | path :: paths, o, q :: pieces, o' => ∃ o₁, Piece isDbg path o q o₁ ∧ Kept isDbg paths o₁ pieces o'
  | _, _, _, _ => False

theorem Piece.proper (piece : Piece isDbg path o q o') (path_clean : ':' ∉ path) (clean : ':' ∉ o) :
    (q ≠ [] ∧ ':' ∉ q) ∧ ':' ∉ o' := by
  cases piece with
  | runtime dbg => exact ⟨by decide, clean⟩
  | debug dbg => exact ⟨by decide, clean⟩
  | @plugin _ dir base name _ slash named =>
      obtain ⟨rfl, -⟩ := strrchr_some slash
      rw [List.mem_append, List.mem_cons, not_or, not_or] at path_clean
      obtain ⟨dir_clean, -, base_clean⟩ := path_clean
      have buffer : ':' ∉ dir ++ o.drop dir.length := by
        rw [List.mem_append, not_or]
        exact ⟨dir_clean, fun member => clean (List.mem_of_mem_drop member)⟩
      refine ⟨⟨?_, fun member => ?_⟩, buffer⟩
      · rw [modulePath_eq, ← List.length_pos_iff]
        simp only [List.length_take, List.length_append, List.length_cons, maxListStr]
        omega
      · exact modulePath_clean buffer (strip_clean named base_clean) (List.mem_of_mem_take member)

theorem appendPath_ok (appended : appendPath result q = .ok result') :
    result' = result ++ q ++ [':'] ∧ result'.length ≤ maxListStr := by
  obtain ⟨⟨⟩, fits, rest⟩ := bind_eq_ok.mp appended
  cases rest
  have room : result.length + q.length < maxListStr := by
    by_contra full
    rw [check, if_neg (by simpa using full)] at fits
    cases fits
  refine ⟨rfl, ?_⟩
  simp only [List.length_append, List.length_cons, List.length_nil]
  omega

theorem fixRound_ok (done : fixRound isDbg path result o = .ok (result', o')) (path_clean : ':' ∉ path)
    (clean : ':' ∉ o) :
    (∃ q, Piece isDbg path o q o' ∧ result' = result ++ q ++ [':'] ∧ result'.length ≤ maxListStr) ∨
      (result' = result ∧ ':' ∉ o') := by
  rw [fixRound] at done
  split at done
  · rename_i bare
    obtain ⟨r, appended, rest⟩ := bind_eq_ok.mp done
    cases rest
    obtain ⟨rfl, dbg⟩ := bare
    exact .inl ⟨_, .runtime dbg, appendPath_ok appended⟩
  · split at done
    · rename_i bare
      obtain ⟨r, appended, rest⟩ := bind_eq_ok.mp done
      cases rest
      obtain ⟨rfl, dbg⟩ := bare
      exact .inl ⟨_, .debug dbg, appendPath_ok appended⟩
    · rw [parseRuntimePluginPath] at done
      cases slash : strrchr path with
      | none =>
          rw [slash] at done
          cases done
      | some r =>
          obtain ⟨dir, base⟩ := r
          rw [slash] at done
          cases named : strip base with
          | none =>
              simp only [ok_bind, named] at done
              cases done
              obtain ⟨rfl, -⟩ := strrchr_some slash
              rw [List.mem_append, not_or] at path_clean
              refine .inr ⟨rfl, ?_⟩
              rw [List.mem_append, not_or]
              exact ⟨path_clean.1, fun member => clean (List.mem_of_mem_drop member)⟩
          | some name =>
              simp only [ok_bind, named] at done
              obtain ⟨r, appended, rest⟩ := bind_eq_ok.mp done
              cases rest
              exact .inl ⟨_, .plugin slash named, appendPath_ok appended⟩

theorem fixLoop_ok (done : fixLoop isDbg paths result o = .ok (result', o')) (proper : Proper ':' paths)
    (clean : ':' ∉ o) (room : result.length ≤ maxListStr) :
    ∃ pieces, result' = result ++ flat pieces ∧ Proper ':' pieces ∧ pieces.length ≤ paths.length ∧
      result'.length ≤ maxListStr ∧ ':' ∉ o' ∧
      (pieces.length = paths.length → Kept isDbg paths o pieces o') := by
  have nothing : Proper ':' ([] : List Text) := fun _ member => absurd member List.not_mem_nil
  induction paths generalizing result o with
  | nil =>
      cases done
      exact ⟨[], (List.append_nil _).symm, nothing, Nat.le_refl _, room, clean, fun _ => rfl⟩
  | cons path paths ih =>
      rw [fixLoop] at done
      split at done
      · obtain ⟨⟨r, o₁⟩, round, rest⟩ := bind_eq_ok.mp done
        have path_clean := (proper path List.mem_cons_self).2
        have tail : Proper ':' paths := fun x member => proper x (List.mem_cons_of_mem _ member)
        obtain ⟨q, piece, rfl, fits⟩ | ⟨rfl, clean₁⟩ := fixRound_ok round path_clean clean
        · obtain ⟨first, clean₁⟩ := piece.proper path_clean clean
          obtain ⟨pieces, whole, others, fewer, short, clean', kept⟩ := ih rest tail clean₁ fits
          refine ⟨q :: pieces, ?_, ?_, Nat.succ_le_succ fewer, short, clean', fun same => ?_⟩
          · rw [whole, flat_cons]
            simp
          · intro x member
            obtain rfl | later := List.mem_cons.mp member
            · exact first
            · exact others x later
          · exact ⟨o₁, piece, kept (Nat.succ.inj same)⟩
        · obtain ⟨pieces, whole, others, fewer, short, clean', -⟩ := ih rest tail clean₁ room
          refine ⟨pieces, whole, others, Nat.le_succ_of_le fewer, short, clean', fun same => ?_⟩
          rw [List.length_cons] at same
          omega
      · cases done
        exact ⟨[], (List.append_nil _).symm, nothing, Nat.zero_le _, room, clean, fun same => by cases same⟩

theorem fix_ok {text : Text} (some_ : text ≠ [])
    (done : ldPreloadFixDbg isDbg { ldPreload := some text, outDir := o } = .ok s') (clean : ':' ∉ o) :
    ∃ pieces, s'.ldPreload = some ([':'].intercalate pieces) ∧ pieces ≠ [] ∧ Proper ':' pieces ∧
      (flat pieces).length ≤ maxListStr ∧ ':' ∉ s'.outDir ∧
      (pieces.length = (tokens ':' text).length → Kept isDbg (tokens ':' text) o pieces s'.outDir) := by
  cases text with
  | nil => exact absurd rfl some_
  | cons c text =>
      rw [ldPreloadFixDbg] at done
      obtain ⟨⟨⟩, -, done⟩ := bind_eq_ok.mp done
      obtain ⟨⟨r, o'⟩, looped, done⟩ := bind_eq_ok.mp done
      obtain ⟨⟨⟩, written, done⟩ := bind_eq_ok.mp done
      cases done
      obtain ⟨pieces, whole, proper, -, short, clean', kept⟩ :=
        fixLoop_ok looped tokens_proper clean (Nat.zero_le _)
      rw [List.nil_append] at whole
      subst whole
      have not_empty : pieces ≠ [] := by
        rintro rfl
        cases written
      refine ⟨pieces, ?_, not_empty, proper, short, clean', kept⟩
      rw [flat_eq not_empty, List.dropLast_concat]

end Loop

section Plugins

theorem fixRound_plugin (slash : strrchr path = some (dir, base)) (named : strip base = some name)
    (covers : o.length ≤ dir.length)
    (fits : result.length + (variant isDbg path).length < maxListStr) :
    fixRound isDbg path result o = .ok (result ++ variant isDbg path ++ [':'], dir) := by
  have whole : variant isDbg path = modulePath isDbg dir name := variant_plugin slash named
  have in_dir {bare : Text} (none_behind : strrchr bare = none) : path ≠ bare := by
    rintro rfl
    rw [none_behind] at slash
    cases slash
  have buffer : dir ++ o.drop dir.length = dir := by
    rw [List.drop_eq_nil_of_le covers, List.append_nil]
  have short : (modulePath isDbg dir name).take (maxListStr - 1) = variant isDbg path := by
    rw [← whole]
    exact List.take_of_length_le (by omega)
  rw [fixRound, if_neg fun bare => in_dir (by decide) bare.1,
    if_neg fun bare => in_dir (by decide) bare.1, parseRuntimePluginPath, slash]
  simp only [named, ok_bind, buffer, short, appendPath, decide_eq_true fits, check_true]

def Replaced (k : Nat) (path : Text) : Prop :=
  ∃ dir base name, strrchr path = some (dir, base) ∧ strip base = some name ∧ dir.length = k

theorem fixLoop_plugins (all : ∀ path ∈ paths, Replaced k path) (covers : o.length ≤ k)
    (fits : result.length + (flat (paths.map (variant isDbg))).length ≤ maxListStr) :
    ∃ o', fixLoop isDbg paths result o = .ok (result ++ flat (paths.map (variant isDbg)), o') ∧
      o'.length ≤ k := by
  induction paths generalizing result o with
  | nil => exact ⟨o, by simp [fixLoop, flat], covers⟩
  | cons path paths ih =>
      obtain ⟨dir, base, name, slash, named, rfl⟩ := all path List.mem_cons_self
      simp only [List.map_cons, flat_cons, List.length_append, List.length_cons,
        List.length_nil] at fits
      have some_ : 0 < (variant isDbg path).length := by
        rw [variant_plugin slash named, modulePath_eq, List.length_append, List.length_cons]
        omega
      have round : fixRound isDbg path result o = .ok (result ++ variant isDbg path ++ [':'], dir) :=
        fixRound_plugin slash named covers (by omega)
      have fits' : (result ++ variant isDbg path ++ [':']).length +
          (flat (paths.map (variant isDbg))).length ≤ maxListStr := by
        simp only [List.length_append, List.length_cons, List.length_nil]
        omega
      obtain ⟨o', rest, covers'⟩ := ih (fun x member => all x (List.mem_cons_of_mem _ member))
        (Nat.le_refl dir.length) fits'
      refine ⟨o', ?_, covers'⟩
      rw [fixLoop, if_pos (by omega), round, ok_bind]
      simp only [rest]
      rw [List.map_cons, flat_cons]
      simp only [List.append_assoc]

theorem fix_plugins {text : Text} (short : text.length < maxListStr) (some_ : tokens ':' text ≠ [])
    (all : ∀ path ∈ tokens ':' text, Replaced k path) (covers : o.length ≤ k)
    (fits : ([':'].intercalate ((tokens ':' text).map (variant isDbg))).length < maxListStr) :
    ∃ o', ldPreloadFixDbg isDbg { ldPreload := some text, outDir := o } = .ok
        { ldPreload := some ([':'].intercalate ((tokens ':' text).map (variant isDbg))), outDir := o' } ∧
      o'.length ≤ k := by
  have some_map : (tokens ':' text).map (variant isDbg) ≠ [] := fun none => some_ (List.map_eq_nil_iff.mp none)
  have whole := flat_eq some_map
  have length := congrArg List.length whole
  rw [List.length_append, List.length_cons, List.length_nil] at length
  have fits' : ([] : Text).length + (flat ((tokens ':' text).map (variant isDbg))).length ≤ maxListStr := by
    rw [List.length_nil]
    omega
  obtain ⟨o', looped, covers'⟩ := fixLoop_plugins all covers fits'
  refine ⟨o', ?_, covers'⟩
  cases text with
  | nil => exact absurd (by simp [tokens, List.splitOn_nil]) some_
  | cons c text =>
      rw [List.nil_append, whole] at looped
      simp only [ldPreloadFixDbg, decide_eq_true short, check_true, ok_bind, looped]
      rw [List.length_append, List.dropLast_concat]
      simp

theorem plugin_replaced (plugged : PluginIn isDbg k path) : Replaced k path := by
  obtain ⟨dir, base, name, slash, named, length, -⟩ := plugged
  exact ⟨dir, base, name, slash, named, length⟩

theorem variant_again (plugged : PluginIn isDbg k path) :
    Replaced k (variant isDbg path) ∧ variant isDbg (variant isDbg path) = variant isDbg path := by
  obtain ⟨dir, base, name, slash, named, length, other⟩ := plugged
  have slash' : strrchr (variant isDbg path) = some (dir, plugin isDbg name) := by
    rw [strrchr_variant slash, variantName_strip named]
  have named' : strip (plugin isDbg name) = some name := by
    cases isDbg with
    | true => exact strip_debug name
    | false => exact strip_release (other rfl)
  refine ⟨⟨dir, _, name, slash', named', length⟩, ?_⟩
  rw [variant_plugin slash' named', variant_plugin slash named]

theorem variants_proper (proper : Proper ':' paths) (all : ∀ path ∈ paths, Replaced k path) :
    Proper ':' (paths.map (variant isDbg)) := by
  intro q member
  obtain ⟨path, old, rfl⟩ := List.mem_map.mp member
  obtain ⟨dir, base, name, slash, named, -⟩ := all path old
  obtain ⟨whole, -⟩ := strrchr_some slash
  have clean := (proper path old).2
  rw [whole, List.mem_append, List.mem_cons, not_or, not_or] at clean
  rw [variant_plugin slash named]
  refine ⟨?_, modulePath_clean clean.1 (strip_clean named clean.2.2)⟩
  rw [modulePath_eq]
  simp

theorem uniform_switches {ldPreload : Option Text}
    (short : ∀ text, ldPreload = some text → text.length < maxListStr)
    (uniform : Uniform isDbg ldPreload) : Switches isDbg { ldPreload, outDir := [] } := by
  have unset (same : ldPreloadFixDbg isDbg { ldPreload, outDir := [] } = .ok { ldPreload, outDir := [] })
      (none_listed : entries ldPreload = []) : Switches isDbg { ldPreload, outDir := [] } :=
    ⟨_, same, by simp only [none_listed, List.map_nil], _, same, rfl⟩
  obtain empty | ⟨some_, ⟨k, all⟩, fits⟩ := uniform
  · cases ldPreload with
    | none => exact unset rfl (by simp [entries, tokens, List.splitOn_nil])
    | some text =>
        cases text with
        | nil => exact unset rfl (by simp [entries, tokens, List.splitOn_nil])
        | cons c text => cases empty
  · cases ldPreload with
    | none => exact absurd (by simp [entries, tokens, List.splitOn_nil]) some_
    | some text =>
        rw [entries, Option.getD_some] at some_ all fits
        have replaced := fun path member => plugin_replaced (all path member)
        have covers₀ : ([] : Text).length ≤ k := Nat.zero_le _
        obtain ⟨o', ran, covers⟩ := fix_plugins (short text rfl) some_ replaced covers₀ fits
        have proper : Proper ':' ((tokens ':' text).map (variant isDbg)) :=
          variants_proper tokens_proper replaced
        have listed := tokens_intercalate proper
        have fixed : ((tokens ':' text).map (variant isDbg)).map (variant isDbg) =
            (tokens ':' text).map (variant isDbg) := by
          rw [List.map_map]
          exact List.map_congr_left fun path member => (variant_again (all path member)).2
        have some_map : (tokens ':' text).map (variant isDbg) ≠ [] := fun none =>
          some_ (List.map_eq_nil_iff.mp none)
        have replaced' : ∀ q ∈ (tokens ':' text).map (variant isDbg), Replaced k q := by
          intro q member
          obtain ⟨path, old, rfl⟩ := List.mem_map.mp member
          exact (variant_again (all path old)).1
        have fits' : ([':'].intercalate (((tokens ':' text).map (variant isDbg)).map
            (variant isDbg))).length < maxListStr := by
          rw [fixed]
          exact fits
        rw [← listed] at some_map replaced' fits'
        obtain ⟨o'', ran', -⟩ := fix_plugins fits some_map replaced' covers fits'
        rw [listed, fixed] at ran'
        refine ⟨_, ran, ?_, _, ran', rfl⟩
        rw [entries, entries, Option.getD_some, Option.getD_some, listed]

end Plugins

section Converse

/-- An entry and the piece for it, with the lengths of the directory in the buffer at the start and at the
end. -/
def Aligned (isDbg : Bool) (low high : Nat) (path q : Text) : Prop :=
  ∃ dir base name, strrchr path = some (dir, base) ∧ strip base = some name ∧ low ≤ dir.length ∧
    dir.length ≤ high ∧ q = (modulePath isDbg dir name).take (maxListStr - 1)

def SameDir (path q : Text) : Prop :=
  ∀ dir base, strrchr path = some (dir, base) → ∃ base', strrchr q = some (dir, base')

theorem Piece.bare (piece : Piece isDbg path o q o') (none_behind : strrchr path = none) :
    (isDbg = true ∧ path = liblottoRuntime ∧ q = liblottoRuntimeDbg) ∨
      (isDbg = false ∧ path = liblottoRuntimeDbg ∧ q = liblottoRuntime) := by
  cases piece with
  | runtime dbg => exact .inl ⟨dbg, rfl, rfl⟩
  | debug dbg => exact .inr ⟨dbg, rfl, rfl⟩
  | plugin slash named =>
      rw [none_behind] at slash
      cases slash

theorem Piece.aligned (piece : Piece isDbg path o q o') (slash : strrchr path = some (dir, base))
    (fits : (SameDir path q ∧ q.length < maxListStr - 1) ∨ o.length ≤ dir.length) :
    o' = dir ∧ o.length ≤ dir.length ∧
      ∃ name, strip base = some name ∧ q = (modulePath isDbg dir name).take (maxListStr - 1) := by
  cases piece with
  | runtime dbg => exact absurd slash (by rw [show strrchr liblottoRuntime = none by decide]; simp)
  | debug dbg => exact absurd slash (by rw [show strrchr liblottoRuntimeDbg = none by decide]; simp)
  | @plugin _ dir' base' name _ slash' named =>
      rw [slash'] at slash
      cases slash
      have covers : o.length ≤ dir.length := by
        obtain ⟨same, short⟩ | covers := fits
        · rw [List.length_take] at short
          obtain ⟨base', found⟩ := same dir base slash'
          rw [List.take_of_length_le (by omega), modulePath_eq,
            strrchr_join (plugin_clean (.inl rfl) (strip_clean named (strrchr_some slash').2))] at found
          have buffer : dir ++ o.drop dir.length = dir := congrArg Prod.fst (Option.some.inj found)
          exact List.drop_eq_nil_iff.mp (List.append_right_eq_self.mp buffer)
        · exact covers
      have buffer : dir ++ o.drop dir.length = dir := by
        rw [List.drop_eq_nil_of_le covers, List.append_nil]
      rw [buffer]
      exact ⟨rfl, covers, name, named, rfl⟩

theorem kept_aligned (kept : Kept isDbg paths o pieces o') (same : List.Forall₂ SameDir paths pieces)
    (slashes : ∀ path ∈ paths, strrchr path ≠ none) (short : ∀ q ∈ pieces, q.length < maxListStr - 1) :
    o.length ≤ o'.length ∧ List.Forall₂ (Aligned isDbg o.length o'.length) paths pieces := by
  induction same generalizing o with
  | nil =>
      cases kept
      exact ⟨Nat.le_refl _, .nil⟩
  | @cons path q paths pieces first rest ih =>
      obtain ⟨o₁, piece, kept⟩ := kept
      obtain ⟨⟨dir, base⟩, slash⟩ := Option.ne_none_iff_exists'.mp (slashes path List.mem_cons_self)
      obtain ⟨rfl, covers, name, named, whole⟩ :=
        piece.aligned slash (.inl ⟨first, short q List.mem_cons_self⟩)
      obtain ⟨grows, others⟩ := ih kept (fun x member => slashes x (List.mem_cons_of_mem _ member))
        fun x member => short x (List.mem_cons_of_mem _ member)
      refine ⟨covers.trans grows, .cons ⟨_, base, name, slash, named, covers, grows, whole⟩
        (others.imp fun x y aligned => ?_)⟩
      obtain ⟨dir', base', name', slash', named', low, high, whole'⟩ := aligned
      exact ⟨dir', base', name', slash', named', covers.trans low, high, whole'⟩

theorem Kept.each (kept : Kept isDbg paths o pieces o') :
    List.Forall₂ (fun path q => ∃ o o', Piece isDbg path o q o') paths pieces := by
  induction paths generalizing o pieces with
  | nil =>
      cases pieces with
      | nil => exact .nil
      | cons q pieces => exact kept.elim
  | cons path paths ih =>
      cases pieces with
      | nil => exact kept.elim
      | cons q pieces =>
          obtain ⟨o₁, piece, kept⟩ := kept
          exact .cons ⟨o, o₁, piece⟩ (ih kept)

def Stable (isDbg : Bool) (k : Nat) (path : Text) : Prop :=
  ∃ dir base name name', strrchr path = some (dir, base) ∧ strip base = some name ∧ dir.length = k ∧
    strip (plugin isDbg name) = some name' ∧
      variant isDbg path = (modulePath isDbg dir name').take (maxListStr - 1)

theorem Stable.pluginIn (stable : Stable isDbg k path) : PluginIn isDbg k path := by
  obtain ⟨dir, base, name, name', slash, named, length, named', whole⟩ := stable
  refine ⟨dir, base, name, slash, named, length, fun release => ?_⟩
  subst release
  rintro ⟨rest, rfl⟩
  have shorter : strip (plugin false (['d', 'b', 'g', '-'] ++ rest)) = some rest := strip_debug rest
  rw [shorter] at named'
  cases named'
  rw [variant_plugin slash named] at whole
  have lengths := congrArg List.length whole
  simp only [List.length_take, modulePath_eq, plugin, Bool.false_eq_true, if_false, List.length_append,
    List.length_cons, List.length_nil] at lengths
  omega

theorem kept_stable {o'' : Text} (kept : Kept isDbg paths [] (paths.map (variant isDbg)) o')
    (again : Kept isDbg (paths.map (variant isDbg)) o' (paths.map (variant isDbg)) o'')
    (proper : Proper ':' (paths.map (variant isDbg)))
    (fits : (flat (paths.map (variant isDbg))).length ≤ maxListStr) (some_ : paths ≠ []) :
    ∃ k, ∀ path ∈ paths, Stable isDbg k path := by
  have first := List.forall₂_map_right_iff.mp kept.each
  have second := List.forall₂_map_left_iff.mp (List.forall₂_map_right_iff.mp again.each)
  have slashes : ∀ path ∈ paths, strrchr path ≠ none := by
    intro path member none_behind
    obtain ⟨_, _, piece⟩ := List.forall₂_same.mp first path member
    obtain ⟨_, _, piece'⟩ := List.forall₂_same.mp second path member
    obtain ⟨rfl, rfl, whole⟩ | ⟨rfl, rfl, whole⟩ := piece.bare none_behind
    · rw [whole] at piece'
      obtain ⟨-, other, -⟩ | ⟨other, -⟩ := piece'.bare (by decide)
      · exact absurd other (by decide)
      · cases other
    · rw [whole] at piece'
      obtain ⟨other, -⟩ | ⟨-, other, -⟩ := piece'.bare (by decide)
      · cases other
      · exact absurd other (by decide)
  have variants {path dir base name : Text} (slash : strrchr path = some (dir, base))
      (named : strip base = some name) :
      strrchr (variant isDbg path) = some (dir, plugin isDbg name) := by
    rw [strrchr_variant slash, variantName_strip named]
  by_cases single : ∃ path, paths = [path]
  · obtain ⟨path, rfl⟩ := single
    obtain ⟨⟨dir, base⟩, slash⟩ := Option.ne_none_iff_exists'.mp (slashes path List.mem_cons_self)
    obtain ⟨o₁, piece, rfl⟩ := kept
    obtain ⟨rfl, -, name, named, -⟩ := piece.aligned slash (.inr (Nat.zero_le _))
    obtain ⟨o₂, piece', -⟩ := again
    obtain ⟨-, -, name', named', whole⟩ := piece'.aligned (variants slash named) (.inr (Nat.le_refl _))
    refine ⟨o'.length, fun x member => ?_⟩
    rw [List.mem_singleton.mp member]
    exact ⟨_, base, name, name', slash, named, rfl, named', whole⟩
  · have many : 2 ≤ paths.length := by
      obtain _ | ⟨path, _ | ⟨path', rest⟩⟩ := paths
      · exact absurd rfl some_
      · exact absurd ⟨path, rfl⟩ single
      · simp
    have short : ∀ q ∈ paths.map (variant isDbg), q.length < maxListStr - 1 := by
      intro q member
      have room := flat_length proper member
      rw [List.length_map] at room
      rw [maxListStr] at *
      omega
    obtain ⟨-, aligned⟩ := kept_aligned kept (List.forall₂_map_right_iff.mpr (List.forall₂_same.mpr
      fun path member dir base slash => ⟨_, strrchr_variant slash⟩)) slashes short
    obtain ⟨-, aligned'⟩ := kept_aligned again (List.forall₂_same.mpr
      fun path member dir base slash => ⟨_, slash⟩) (by
        intro q member
        obtain ⟨path, old, rfl⟩ := List.mem_map.mp member
        obtain ⟨⟨dir, base⟩, slash⟩ := Option.ne_none_iff_exists'.mp (slashes path old)
        rw [strrchr_variant slash]
        exact Option.some_ne_none _) short
    refine ⟨o'.length, fun path member => ?_⟩
    obtain ⟨dir, base, name, slash, named, -, high, -⟩ :=
      List.forall₂_same.mp (List.forall₂_map_right_iff.mp aligned) path member
    obtain ⟨dir', base', name', slash', named', low, -, whole⟩ :=
      List.forall₂_same.mp aligned' _ (List.mem_map_of_mem member)
    rw [variants slash named] at slash'
    cases slash'
    exact ⟨dir, base, name, name', slash, named, Nat.le_antisymm high low, named', whole⟩

theorem switches_uniform {ldPreload : Option Text}
    (switches : Switches isDbg { ldPreload, outDir := [] }) : Uniform isDbg ldPreload := by
  by_cases empty : ldPreload.getD [] = []
  · exact .inl empty
  · obtain ⟨text, rfl⟩ : ∃ text, ldPreload = some text := by
      cases ldPreload with
      | none => exact absurd rfl empty
      | some text => exact ⟨text, rfl⟩
    rw [Option.getD_some] at empty
    obtain ⟨s', ran, same, s'', again, fixed⟩ := switches
    obtain ⟨pieces, listed, some_, proper, short, clean, kept⟩ := fix_ok empty ran List.not_mem_nil
    have whole := tokens_intercalate proper
    rw [listed, entries, entries, Option.getD_some, Option.getD_some, whole] at same
    have kept := kept (by rw [same, List.length_map])
    have text_some : [':'].intercalate pieces ≠ [] := fun none => some_ ((intercalate_eq_nil proper).mp none)
    have again : ldPreloadFixDbg isDbg
        { ldPreload := some ([':'].intercalate pieces), outDir := s'.outDir } = .ok s'' := by
      rw [← listed]
      exact again
    obtain ⟨pieces', listed', -, proper', -, -, kept'⟩ := fix_ok text_some again clean
    have whole' := tokens_intercalate proper'
    rw [listed', listed] at fixed
    have pieces_eq : pieces' = pieces := by
      rw [← whole', ← whole, Option.some.inj fixed]
    subst pieces_eq
    rw [whole] at kept'
    have kept' := kept' rfl
    subst same
    have tokens_some : tokens ':' text ≠ [] := fun none => some_ (by rw [none, List.map_nil])
    obtain ⟨k, stable⟩ := kept_stable kept kept' proper short tokens_some
    refine .inr ⟨tokens_some, ⟨k, fun path member => (stable path member).pluginIn⟩, ?_⟩
    rw [flat_eq some_, List.length_append, List.length_cons, List.length_nil] at short
    rw [entries, Option.getD_some]
    omega

end Converse

/-- `_ld_preload_fix_dbg` in a process that did not call it before switches a list that fits its buffers,
and only then, if nothing is set, or all entries are runtime plugins in directories of one length, none of
which looks like another variant once it is released, and the result fits. -/
theorem fix_switches_iff {ldPreload : Option Text}
    (short : ∀ text, ldPreload = some text → text.length < maxListStr) :
    Switches isDbg { ldPreload, outDir := [] } ↔ Uniform isDbg ldPreload :=
  ⟨switches_uniform, uniform_switches short⟩

def twoPaths : Text := ['/', 'd', '/', 'x', ':', '/', 'd', '/'] ++ runtimeModule ++ ['m']

theorem fix_switches_twoPaths :
    Switches true { ldPreload := some twoPaths, outDir := [] } ↔ Uniform true (some twoPaths) :=
  fix_switches_iff fun text here => by
    rw [← Option.some.inj here]
    decide

/-- The entry that is no runtime library is lost. -/
theorem fix_loses_entry : ¬Switches true { ldPreload := some twoPaths, outDir := [] } := by
  rintro ⟨s', ran, same, -⟩
  have left : (ldPreloadFixDbg true { ldPreload := some twoPaths, outDir := [] }).toOption.map
      (fun s => (entries s.ldPreload).length) = some 1 := by decide +kernel
  rw [ran] at left
  have one : (entries s'.ldPreload).length = 1 := Option.some.inj left
  rw [same, List.length_map] at one
  exact absurd one (by decide +kernel)

end Lotto.PreloadSwitch
