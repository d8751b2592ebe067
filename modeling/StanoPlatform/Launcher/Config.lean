import StanoPlatform.Di.Environment
import StanoPlatform.Launcher.Cors

/-!
# `Launcher/Config.lean` — what the environment makes of `cors_layer`

The lists of a `BootstrapConfig` are read from variables (`parse_csv_env`), and `cors_layer` takes
them as they come. An empty suffix would end every origin there is; none is ever read. A `*` among
the dev origins is read, and is the end of the server (`credentials_from_environment`).

From `stano-launcher/src/config.rs` and the `BootstrapConfig` of the example in the README, which
reads the three lists by their variables. Whether it is a debug build is an argument.
-/

set_option autoImplicit false

namespace StanoPlatform
namespace Launcher

open Lib Di Axum

/-- `debug` is `cfg!(debug_assertions)`. -/
def isDevEnvironment (debug : Bool) (environment : Environment) : Bool :=
  debug || eqIgnoreAsciiCase ((environment "RUST_ENV").getD "") "development"

/-- The variables that an application keeps its lists in. -/
structure CorsKeys where
  origins : String
  originSuffixes : String
  devOrigins : String

/-- The CORS settings, as an application fills them in. -/
def bootstrapConfigFromEnv (debug : Bool) (environment : Environment) (keys : CorsKeys) :
    BootstrapConfig :=
  { corsOrigins := parseCsvEnv environment keys.origins
    corsOriginSuffixes := parseCsvEnv environment keys.originSuffixes
    corsDevOrigins := parseCsvEnv environment keys.devOrigins
    isDev := isDevEnvironment debug environment }

/-! ## Lists -/

/-- **A list is read as it was meant, whatever blanks it is written with.** -/
theorem parseCsvEnv_written {environment : Environment} {key : String}
    {es pieces : List (List Char)} (hes : ∀ e ∈ es, IsEntry isWhitespace ',' e)
    (hpieces : List.Forall₂ (Padded isWhitespace ',') es pieces)
    (hkey : environment key = some (String.ofList ([','].intercalate pieces))) :
    parseCsvEnv environment key = es.map String.ofList := by
  rw [parseCsvEnv, csvEntries, hkey, Option.getD_some, String.toList_ofList,
    entries_intercalate hes hpieces]

def twoSuffixes : Environment
  | "APP_CORS_ORIGIN_SUFFIXES" => some " .example.com ,.org"
  | _ => none

theorem twoSuffixes_read :
    parseCsvEnv twoSuffixes "APP_CORS_ORIGIN_SUFFIXES" = [".example.com", ".org"] := by
  have hentry : ∀ e : List Char, e ≠ [] → ',' ∉ e → e.head?.all (! isWhitespace ·) = true →
      e.getLast?.all (! isWhitespace ·) = true → IsEntry isWhitespace ',' e :=
    fun e hne hsep hhead hlast => ⟨hne, hsep, by simpa [Option.all_eq_true] using hhead,
      by simpa [Option.all_eq_true] using hlast⟩
  have hfirst : IsEntry isWhitespace ',' ".example.com".toList :=
    hentry _ (by decide) (by decide) (by decide) (by decide)
  have hsecond : IsEntry isWhitespace ',' ".org".toList :=
    hentry _ (by decide) (by decide) (by decide) (by decide)
  exact parseCsvEnv_written
    (List.forall_mem_cons.mpr ⟨hfirst, List.forall_mem_singleton.mpr hsecond⟩)
    (.cons ⟨[' '], [' '], rfl, rfl, by decide, rfl, by decide⟩
      (.cons ⟨[], [], rfl, rfl, by decide, rfl, by decide⟩ .nil)) rfl

/-! ## Origins -/

theorem parseHeaderValue_eq_some {o : String} {value : HeaderValue} :
    parseHeaderValue o = some value ↔ utf8 o = value.bytes := by
  obtain ⟨bytes, legal⟩ := value
  rw [parseHeaderValue]
  constructor
  · intro h
    split at h
    · cases h
      rfl
    · cases h
  · rintro rfl
    rw [dif_pos legal]

theorem parseHeaderValue_wildcard {o : String} : parseHeaderValue o = some wildcard ↔ o = "*" := by
  rw [parseHeaderValue_eq_some]
  exact utf8_inj

theorem Origin.parseHeaderValue_eq_some {origin : Origin} {o : String} :
    parseHeaderValue o = some origin.value ↔ o.toList = origin.text := by
  have hvisible : origin.value.bytes.all visibleByte = true :=
    all_visibleByte origin.text_graphic
  have hascii : ∀ b ∈ origin.value.bytes, b < 128 := fun b hb => by
    have h := List.all_eq_true.mp hvisible b hb
    simp only [visibleByte, Bool.or_eq_true, beq_iff_eq, Bool.and_eq_true, decide_eq_true_eq] at h
    rcases h with rfl | h
    · decide
    · exact UInt8.lt_trans h.2 (by decide)
  have htext : origin.value.bytes.map asChar = origin.text := by
    have h := origin.toStr_value
    rw [HeaderValue.toStr, if_pos hvisible] at h
    exact Option.some.inj h
  rw [← htext, eq_comm (a := o.toList), map_asChar_eq_toList hascii,
    Launcher.parseHeaderValue_eq_some, eq_comm]

/-! ## The layer -/

/-- Dev mode, with a list for it. Of a list with a `*` in it there is no layer. -/
theorem corsLayer_dev {config : BootstrapConfig}
    (hdev : config.isDev = true ∧ config.corsDevOrigins ≠ []) :
    (corsLayer config = none ↔ "*" ∈ config.corsDevOrigins) ∧
    ∀ layer, corsLayer config = some layer → ∀ origin : Origin,
      (layer.AllowsCredentials origin.value ↔
        ∃ o ∈ config.corsDevOrigins, o.toList = origin.text) := by
  have hbranch : (config.isDev && !config.corsDevOrigins.isEmpty) = true := by
    simpa using hdev
  have hstar : wildcard ∈ config.corsDevOrigins.filterMap parseHeaderValue ↔
      "*" ∈ config.corsDevOrigins := by
    rw [List.mem_filterMap]
    simp only [parseHeaderValue_wildcard, exists_eq_right]
  rw [corsLayer, if_pos hbranch, AllowOrigin.ofList]
  constructor
  · rw [Option.map_eq_none_iff, ite_eq_left_iff, ← hstar]
    simp
  · intro layer hsome origin
    obtain ⟨allowOrigin, hallow, rfl⟩ := Option.map_eq_some_iff.mp hsome
    obtain ⟨-, hlist⟩ := Option.ite_none_left_eq_some.mp hallow
    obtain rfl := Option.some.inj hlist
    rw [CorsLayer.AllowsCredentials, AllowOrigin.allows, decide_eq_true_eq, List.mem_filterMap]
    simp only [Origin.parseHeaderValue_eq_some, and_true]

/-- Otherwise there always is one. With nothing listed it permits everything, and credentials to
nobody. -/
theorem corsLayer_lists {config : BootstrapConfig}
    (hdev : ¬ (config.isDev = true ∧ config.corsDevOrigins ≠ [])) :
    ∃ layer, corsLayer config = some layer ∧ ∀ origin : Origin,
      (layer.AllowsCredentials origin.value ↔
        (∃ o ∈ config.corsOrigins, o.toList = origin.text) ∨
          ∃ suf ∈ config.corsOriginSuffixes, suf.toList <:+ origin.text) := by
  have hbranch : ¬ (config.isDev && !config.corsDevOrigins.isEmpty) = true := by
    simpa using hdev
  rw [corsLayer, if_neg hbranch]
  split
  case isTrue hnone =>
    rw [Bool.and_eq_true, List.isEmpty_iff, List.isEmpty_iff] at hnone
    refine ⟨_, rfl, fun origin => ?_⟩
    simp [CorsLayer.AllowsCredentials, CorsLayer.permissive, hnone.1, hnone.2]
  case isFalse =>
    refine ⟨_, rfl, fun origin => ?_⟩
    rw [CorsLayer.AllowsCredentials, AllowOrigin.allows, ← originMatches_iff origin.toStr_value]
    simp only [and_true]

/-! ## Lists that were read -/

theorem parseCsvEnv_eq_nil {environment : Environment} {key : String} :
    parseCsvEnv environment key = [] ↔ csvEntries environment key = [] := by
  rw [parseCsvEnv, List.map_eq_nil_iff]

theorem text_mem_csvEntries {environment : Environment} {key : String} {origin : Origin} :
    (∃ s ∈ parseCsvEnv environment key, s.toList = origin.text) ↔
      origin.text ∈ csvEntries environment key := by
  rw [← String.toList_ofList (l := origin.text), ← toList_mem_csvEntries]
  simp only [String.toList_inj, exists_eq_right]

theorem suffix_mem_csvEntries {environment : Environment} {key : String} {origin : Origin} :
    (∃ suf ∈ parseCsvEnv environment key, suf.toList <:+ origin.text) ↔
      ∃ suf ∈ csvEntries environment key, suf <:+ origin.text := by
  rw [parseCsvEnv]
  simp only [List.mem_map, exists_exists_and_eq_and, String.toList_ofList]

section

variable (debug : Bool) (environment : Environment) (keys : CorsKeys) (origin : Origin)

/-- **Whom the environment trusts.** In dev mode those that are listed for it, if any are, and
otherwise those that are listed and those that end in a listed suffix; and what is listed is
never empty. There is no layer, and no server, exactly where dev mode lists a `*`. -/
theorem credentials_from_environment :
    (corsLayer (bootstrapConfigFromEnv debug environment keys) = none ↔
      isDevEnvironment debug environment = true ∧ ['*'] ∈ csvEntries environment keys.devOrigins) ∧
    (∀ layer, corsLayer (bootstrapConfigFromEnv debug environment keys) = some layer →
      (layer.AllowsCredentials origin.value ↔
        if isDevEnvironment debug environment = true ∧
            csvEntries environment keys.devOrigins ≠ [] then
          origin.text ∈ csvEntries environment keys.devOrigins
        else origin.text ∈ csvEntries environment keys.origins ∨
          ∃ suf ∈ csvEntries environment keys.originSuffixes, suf <:+ origin.text)) ∧
    ∀ key, ∀ e ∈ csvEntries environment key, IsEntry isWhitespace ',' e := by
  refine and_assoc.mp ⟨?_, fun key e he => isEntry_of_mem he⟩
  let config := bootstrapConfigFromEnv debug environment keys
  have hlisted : config.corsDevOrigins ≠ [] ↔ csvEntries environment keys.devOrigins ≠ [] :=
    parseCsvEnv_eq_nil.not
  by_cases hdev : isDevEnvironment debug environment = true ∧
      csvEntries environment keys.devOrigins ≠ []
  · obtain ⟨hpanics, hallows⟩ := @corsLayer_dev config ⟨hdev.1, hlisted.mpr hdev.2⟩
    rw [if_pos hdev]
    refine ⟨?_, fun layer hlayer => (hallows layer hlayer origin).trans text_mem_csvEntries⟩
    rw [hpanics, and_iff_right hdev.1]
    exact toList_mem_csvEntries
  · obtain ⟨layer, hlayer, hallows⟩ := @corsLayer_lists config
      fun h => hdev ⟨h.1, hlisted.mp h.2⟩
    rw [if_neg hdev, hlayer]
    refine ⟨iff_of_false (Option.some_ne_none layer) ?_, ?_⟩
    · -- a `*` on the list would make dev mode count
      exact fun h => hdev ⟨h.1, List.ne_nil_of_mem h.2⟩
    · rintro _ ⟨⟩
      exact (hallows origin).trans (or_congr text_mem_csvEntries suffix_mem_csvEntries)

end

end Launcher
end StanoPlatform
