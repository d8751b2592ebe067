import StanoPlatform.Lib.Entries

/-!
# `Di/Environment.lean` — settings that are texts

A switch is on where its text is `true`, in whatever case; a list is what stands between commas.

From `stano-di/src/environment.rs`, and the readers of settings in `stano-launcher` and
`stano-seaorm` that share its two ways to read a variable. An `Environment` is a snapshot: two reads
of one variable agree, which the operating system does not promise. `str::trim` takes away what
Unicode calls white space, all of which is listed (`isWhitespace`).
-/

set_option autoImplicit false

namespace StanoPlatform
namespace Di

open Lib

/-- `dyn Environment`: what `get` returns for a key. -/
abbrev Environment : Type := String → Option String

def eqIgnoreAsciiCase (s t : String) : Bool :=
  s.toList.map Char.toLower == t.toList.map Char.toLower

/-- `char::is_whitespace` -/
def isWhitespace (c : Char) : Bool :=
  let n := c.toNat
  (9 ≤ n && n ≤ 13) || n == 0x20 || n == 0x85 || n == 0xA0 || n == 0x1680 ||
    (0x2000 ≤ n && n ≤ 0x200A) || n == 0x2028 || n == 0x2029 || n == 0x202F || n == 0x205F ||
    n == 0x3000

/-- The entries of a variable; of one that is not set, there are none. -/
def csvEntries (environment : Environment) (key : String) : List (List Char) :=
  entries isWhitespace ',' ((environment key).getD "").toList

def parseCsvEnv (environment : Environment) (key : String) : List String :=
  (csvEntries environment key).map String.ofList

theorem toList_mem_csvEntries {environment : Environment} {key s : String} :
    s ∈ parseCsvEnv environment key ↔ s.toList ∈ csvEntries environment key := by
  rw [parseCsvEnv, List.mem_map]
  refine ⟨?_, fun h => ⟨s.toList, h, String.ofList_toList⟩⟩
  rintro ⟨e, he, rfl⟩
  rwa [String.toList_ofList]

end Di
end StanoPlatform
