import Framewise.Binding.Basic

/-! # The vocabulary of data frames

  Everything the analysis recognises by name is listed here as data: the names
  of frame libraries, the calls that make frames, the methods that return or
  change one, the attributes a frame has of its own, and the arguments a merge
  must state. A new convention is a new entry in a table.
-/

namespace Framewise.Frame

/-! ### Calls that make frames -/

/-- Names under which a frame library is imported or exposed. -/
def libraries : List String :=
  ["pd", "pandas", "pl", "polars", "dd", "gpd", "geopandas", "mpd", "DataFrame"]

/-- A row of the table of origins: what callee gives what origin. -/
structure CallPattern where
  /-- Origin of the result. -/
  origin : Origin
  /-- Callee names that match. -/
  names : List String := []
  /-- Beginnings of callee names that match. -/
  beginnings : List String := []
  /-- Match only methods of a known frame. -/
  onFrame : Bool := false
  /-- Match only bare calls and calls rooted at a frame library. -/
  onLibrary : Bool := false

/-- True if the row matches a callee name. -/
def CallPattern.covers (row : CallPattern) (callee : String) : Bool :=
  row.names.contains callee || row.beginnings.any fun b => b.isPrefixOf callee

/-- The calls that make frames, in the order in which they are tried. -/
def origins : List CallPattern :=
  [{ origin := .read, beginnings := ["read_"], onLibrary := true },
    { origin := .construction,
      names := ["DataFrame", "from_records", "from_dict", "from_arrays", "json_normalize"],
      onLibrary := true },
    { origin := .merge, names := ["merge", "merge_asof", "merge_ordered"] },
    { origin := .merge, names := ["join"], onFrame := true }]

/-! ### Methods -/

/-- Methods that return a new frame and leave the receiver alone. -/
def returningMethods : List String :=
  ["assign", "astype", "bfill", "clip", "convert_dtypes", "copy", "drop", "drop_duplicates",
    "dropna", "explode", "ffill", "fillna", "head", "infer_objects", "interpolate", "mask",
    "melt", "nlargest", "nsmallest", "pipe", "query", "reindex", "rename", "replace",
    "reset_index", "round", "sample", "set_axis", "set_index", "sort_index", "sort_values",
    "tail", "where"]

/-- Methods that change the receiver when told to, and otherwise return a new frame. -/
def inPlaceMethods : List String :=
  ["bfill", "clip", "drop", "drop_duplicates", "dropna", "eval", "ffill", "fillna",
    "interpolate", "mask", "query", "rename", "rename_axis", "replace", "reset_index",
    "set_axis", "set_index", "sort_index", "sort_values", "where"]

/-- The keyword that tells a method to change its receiver. -/
def inPlaceKeyword : String := "inplace"

/-- Accessors of rows and cells. -/
def rowAccessors : List String := ["loc", "iloc", "at", "iat"]

/-- Accessors of single cells. -/
def cellAccessors : List String := ["at", "iat"]

/-! ### Attributes, names and types -/

/-- Attributes that a frame has of its own; any other attribute is a column. -/
def ownAttributes : List String :=
  ["T", "abs", "add", "add_prefix", "add_suffix", "agg", "aggregate", "align", "all", "any",
    "apply", "applymap", "map", "asfreq", "assign", "astype", "at", "attrs", "axes", "bfill",
    "boxplot", "clip", "columns", "combine", "combine_first", "compare", "convert_dtypes",
    "copy", "corr", "corrwith", "count", "cov", "cummax", "cummin", "cumprod", "cumsum",
    "describe", "diff", "div", "divide", "dot", "drop", "drop_duplicates", "droplevel",
    "dropna", "dtypes", "duplicated", "empty", "eq", "equals", "eval", "explode", "ffill",
    "fillna", "filter", "first_valid_index", "flags", "floordiv", "ge", "get", "groupby",
    "gt", "head", "hist", "iat", "idxmax", "idxmin", "iloc", "index", "infer_objects", "info",
    "insert", "interpolate", "isin", "isna", "isnull", "items", "iterrows", "itertuples",
    "join", "keys", "kurt", "last_valid_index", "le", "loc", "lt", "mask", "max", "mean",
    "median", "melt", "memory_usage", "merge", "min", "mod", "mode", "mul", "multiply",
    "ndim", "ne", "nlargest", "notna", "notnull", "nsmallest", "nunique", "pct_change",
    "pipe", "pivot", "pivot_table", "plot", "pop", "pow", "prod", "quantile", "query", "rank",
    "reindex", "rename", "rename_axis", "reorder_levels", "replace", "resample",
    "reset_index", "rolling", "round", "sample", "select_dtypes", "sem", "set_axis",
    "set_index", "shape", "shift", "size", "skew", "sort_index", "sort_values", "sparse",
    "squeeze", "stack", "std", "style", "sub", "subtract", "sum", "swaplevel", "tail", "take",
    "to_csv", "to_dict", "to_excel", "to_json", "to_numpy", "to_parquet", "to_records",
    "to_sql", "to_string", "transform", "transpose", "truncate", "unstack", "update",
    "value_counts", "values", "var", "where", "xs"]

/-- Types that annotate a frame. -/
def types : List String := ["DataFrame"]

/-- The name without one final line feed. -/
def dropFinalNewline (cs : List Char) : List Char :=
  match cs.reverse with
  | '\n' :: rest => rest.reverse
  | _ => cs

/-- True if a name is one of those by which frames go: `df`, `frame`, `dataframe`, a name
    that begins with `df_`, or one that ends in `_df` or `_frame`. A final line feed does
    not count as part of the name. -/
def namesFrame (name : String) : Bool :=
  let cs := name.toList
  let bare := dropFinalNewline cs
  ["df", "frame", "dataframe"].any (fun w => w.toList = bare) ||
    "df_".toList.isPrefixOf cs || "_df".toList.isSuffixOf bare ||
    "_frame".toList.isSuffixOf bare

/-! ### Merges -/

/-- An argument that a merge must state, with the keywords that state it. -/
structure MergeDuty where
  /-- Name of the argument. -/
  argument : String
  /-- Keywords that state it. -/
  keywords : List String
  /-- What the argument fixes, in words. -/
  meaning : String

/-- What a merge must state. -/
def mergeDuties : List MergeDuty :=
  [{ argument := "how", keywords := ["how"], meaning := "join type" },
    { argument := "on", keywords := ["on", "left_on", "right_on", "left_index", "right_index"],
      meaning := "join key" },
    { argument := "validate", keywords := ["validate"], meaning := "cardinality validation" }]

/-- Callees that merge whatever they are called on. -/
def mergeCallees : List String := ["merge"]

/-- Callees that merge when called on a frame. -/
def joinCallees : List String := ["join"]

/-- Modules whose `merge` has nothing to do with frames. -/
def otherMergers : List String := ["heapq", "itertools", "dict", "collections"]

/-- The value that marks missing data. -/
def missingMark : String := "pd.NA"

end Framewise.Frame
