import MetaInline.Analysis.Basic

namespace MetaInline

structure Region where
  span : Span
  dialect : Script.Dialect
  allowReturn : Bool
deriving DecidableEq

namespace Region

def text (r : Region) (document : Text) : Text :=
  (Text.slice? document r.span.start r.span.stop).getD []

def options (r : Region) (base : AnalysisOptions) : AnalysisOptions :=
  { base with dialect := r.dialect, allowReturn := r.allowReturn }

end Region

structure Scan where
  regions : List Region
  diagnostics : List Diagnostic

namespace Scan

def empty : Scan := ⟨[], []⟩

instance : Append Scan := ⟨fun a b => ⟨a.regions ++ b.regions, a.diagnostics ++ b.diagnostics⟩⟩

end Scan

namespace Analysis

def ofRegion (document : Text) (table : BindingTable) (options : AnalysisOptions) (r : Region) :
    Analysis :=
  (analyze table (r.options options) (r.text document)).shift r.span.start

/-- The analysis of regions one after the other. The calls of resolvers that are made for a region are
known to the resolvers in the regions after it. -/
def ofRegions (document : Text) (table : BindingTable) (options : AnalysisOptions)
    (rs : List Region) : Analysis :=
  rs.foldl (fun a r => a ++ ofRegion document (table.after a.invocations.reverse) options r) empty

def ofScan (document : Text) (scan : Scan) (table : BindingTable) (options : AnalysisOptions) :
    Analysis :=
  ⟨[], scan.diagnostics, []⟩ ++ ofRegions document table options scan.regions

end Analysis
end MetaInline
