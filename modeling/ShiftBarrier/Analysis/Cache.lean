import ShiftBarrier.Analysis.ConstantTable
import ShiftBarrier.Analysis.DefUse

/-!
# Cached analyses

A cache holds at most one result of each analysis, in the order in which they were asked for.  An
analysis is entered before it runs, so one that fails stays with the tables it had made by then.
The constants depend on the types: they ask for them, and go when the types go.

* `Cache.request` runs an analysis unless it is cached.
* `Cache.invalidate` and `Cache.invalidateExcept` drop analyses.
-/

set_option autoImplicit false

namespace ShiftBarrier

/-- The analyses that may be asked for. -/
inductive AnalysisKind
  | types
  | constants
  | defUse
  /-- The analysis that no module has: running it always fails. -/
  | abstract
  deriving DecidableEq, Repr

/-- An analysis in the cache, with the tables it has made. -/
inductive CachedAnalysis
  | types (table : TypeTable)
  /-- Without tables if the types it depends on could not be analysed. -/
  | constants (table : Option ConstantTable)
  | defUse (table : DefUse)
  | abstract

/-- Which analysis it is. -/
def CachedAnalysis.kind : CachedAnalysis → AnalysisKind
  | .types _ => .types
  | .constants _ => .constants
  | .defUse _ => .defUse
  | .abstract => .abstract

/-- The cached analyses, the oldest first. -/
structure Cache where
  entries : List CachedAnalysis := []

namespace Cache

/-- The kinds of the cached analyses, in the order in which they were asked for. -/
def kinds (c : Cache) : List AnalysisKind := c.entries.map CachedAnalysis.kind

/-- Is there an entry of this kind, whether or not its analysis succeeded? -/
def isCached (c : Cache) (kind : AnalysisKind) : Bool := c.kinds.contains kind

/-! ## Tables -/

/-- The table of types, if the types are cached. -/
def types? (c : Cache) : Option TypeTable :=
  c.entries.findSome? fun | .types t => some t | _ => none

/-- The table of constants.  It is missing if the constants are not cached or have no tables. -/
def constants? (c : Cache) : Option ConstantTable :=
  c.entries.findSome? fun | .constants t => t | _ => none

/-- The table of definitions and uses, if it is cached. -/
def defUse? (c : Cache) : Option DefUse :=
  c.entries.findSome? fun | .defUse t => some t | _ => none

/-- Replaces the table of types, if the types are cached. -/
def setTypes (c : Cache) (t : TypeTable) : Cache :=
  ⟨c.entries.map fun | .types _ => .types t | e => e⟩

/-- Replaces the table of constants, if the constants are cached. -/
def setConstants (c : Cache) (t : ConstantTable) : Cache :=
  ⟨c.entries.map fun | .constants _ => .constants (some t) | e => e⟩

/-! ## Requests

A request for the constants enters them without tables, then asks for the types, and fills in the
tables at the end.  If the types fail the entry is left without tables. -/

/-- Enters an analysis behind all others. -/
def push (c : Cache) (e : CachedAnalysis) : Cache := ⟨c.entries ++ [e]⟩

theorem kinds_push (c : Cache) (e : CachedAnalysis) : (c.push e).kinds = c.kinds ++ [e.kind] := by
  simp only [kinds, push, List.map_append, List.map_singleton]

/-- The table of types.  It is entered in whatever state the analysis leaves it, while the failure
goes to the caller of this request only. -/
def requestTypes (m : Module) (c : Cache) : Except Error TypeTable × Cache :=
  match c.types? with
  | some t => (.ok t, c)
  | none =>
    let (result, t) := TypeTable.analyze m
    (result.map fun _ => t, c.push (.types t))

/-- The table is missing if the analysis failed for want of types and was not dropped since. -/
def requestConstants (m : Module) (c : Cache) :
    Except Error (Option ConstantTable) × Cache :=
  if c.isCached .constants then (.ok c.constants?, c)
  else
    match (c.push (.constants none)).requestTypes m with
    | (.error e, c) => (.error e, c)
    | (.ok types, c) =>
      let (result, t) := ConstantTable.analyze types m
      (result.map fun _ => some t, c.setConstants t)

/-- The table of definitions and uses, whose analysis cannot fail. -/
def requestDefUse (m : Module) (c : Cache) : DefUse × Cache :=
  match c.defUse? with
  | some t => (t, c)
  | none => let t := DefUse.analyze m; (t, c.push (.defUse t))

/-- The analysis that no module has fails the first time, and is found in the cache afterwards. -/
def requestAbstract (c : Cache) : Except Error Unit × Cache :=
  if c.isCached .abstract then (.ok (), c)
  else (.error (.notImplemented "IRAnalysis.analyze()"), c.push .abstract)

/-- Asks for an analysis by its kind. -/
def request (m : Module) (kind : AnalysisKind) (c : Cache) : Except Error Unit × Cache :=
  match kind with
  | .types => let (r, c) := c.requestTypes m; (r.map fun _ => (), c)
  | .constants => let (r, c) := c.requestConstants m; (r.map fun _ => (), c)
  | .defUse => (.ok (), (c.requestDefUse m).2)
  | .abstract => c.requestAbstract

/-! ## Invalidation

Nothing else but the types takes another analysis with it. -/

/-- Takes one kind out of the cache, and nothing else. -/
def drop (c : Cache) (kind : AnalysisKind) : Cache := ⟨c.entries.filter (·.kind != kind)⟩

/-- Drops an analysis, and the constants with the types. -/
def invalidate (c : Cache) (kind : AnalysisKind) : Cache :=
  match kind with
  | .types => if c.isCached .types then (c.drop .types).drop .constants else c
  | kind => c.drop kind

/-- Drops every analysis that is cached now and not to be kept. -/
def invalidateExcept (c : Cache) (keep : List AnalysisKind) : Cache :=
  (c.kinds.filter (· ∉ keep)).foldl invalidate c

end Cache
end ShiftBarrier
