import MixedWorkload.Proofs.Csv.Tables
import MixedWorkload.Proofs.Files.Contents

/-!
# The series for plotting can be read from their files

The two series for plotting are written as tables into files of a directory. A plotting program
finds in them what there was to plot: the points in their order, each with its numbers, and the
doubles among these down to the sign of a zero, whether they are finite or not. For the tables
this is `MixedWorkload.PlotData.holds_latencyTable` and its companion, and from there it comes to
the files, because what was written into a directory can be read there.
-/

namespace MixedWorkload

open CommandLine

/-! ### Points -/

/-- The mean latency of a query, from the cells of its line. -/
def LatencyPoint.read? : List (List Char) → Option LatencyPoint
  | [queryNumber, type, meanLatency] => do
    let queryNumber ← Text.readUInt32? queryNumber
    let type ← Text.readUInt32? type
    let meanLatency ← Decimal.readFloat? meanLatency
    return ⟨queryNumber, type, meanLatency⟩
  | _ => none

/-- The throughput in a bin, from the cells of its line. -/
def ThroughputPoint.read? : List (List Char) → Option ThroughputPoint
  | [binStart, perSecond] => do
    let binStart ← Decimal.readFloat? binStart
    let perSecond ← Decimal.readFloat? perSecond
    return ⟨binStart, perSecond⟩
  | _ => none

namespace PlotData

variable (p : PlotData)

/-! ### Tables -/

/-- The table of mean latencies holds them. -/
theorem holds_latencyTable : Csv.Holds LatencyPoint.read?
    "query_number,transaction_type,mean_latency".toList p.latencyTable.toList p.latencies := by
  have hheader : "query_number,transaction_type,mean_latency".toList =
      Csv.lineOf (["query_number", "transaction_type", "mean_latency"].map String.toList) := rfl
  rw [hheader]
  refine Csv.holds_table (by simp [Csv.IsUnquoted]) (fun point => ?_) p.latencies
  refine .of_isUnquoted (List.cons_ne_nil _ _) ?_ ?_
  · simp only [List.map_cons, List.map_nil, List.forall_mem_cons]
    exact ⟨Csv.isUnquoted_natural _, Csv.isUnquoted_natural _, Csv.isUnquoted_number _,
      List.forall_mem_nil _⟩
  · simp only [List.map_cons, List.map_nil, LatencyPoint.read?, Text.readUInt32?_toString,
      Csv.number_isReadable.readFloat?_render]
    rfl

/-- The table of throughput holds it. -/
theorem holds_throughputTable : Csv.Holds ThroughputPoint.read?
    "bin_start,transactions_per_second".toList p.throughputTable.toList p.throughput := by
  have hheader : "bin_start,transactions_per_second".toList =
      Csv.lineOf (["bin_start", "transactions_per_second"].map String.toList) := rfl
  rw [hheader]
  refine Csv.holds_table (by simp [Csv.IsUnquoted]) (fun point => ?_) p.throughput
  refine .of_isUnquoted (List.cons_ne_nil _ _) ?_ ?_
  · simp only [List.map_cons, List.map_nil, List.forall_mem_cons]
    exact ⟨Csv.isUnquoted_number _, Csv.isUnquoted_number _, List.forall_mem_nil _⟩
  · simp only [List.map_cons, List.map_nil, ThroughputPoint.read?,
      Csv.number_isReadable.readFloat?_render]
    rfl

/-! ### Files -/

/-- **The series are in a directory**: the files for them have the contents of texts that hold
them. -/
structure IsIn (directory : String) (s : Store) : Prop where
  /-- The mean latencies, with three numbers for each. -/
  latencies : ∃ text, s.read (Path.join directory "latencies.csv") = .ok (Text.Utf8.encode text) ∧
    Csv.Holds LatencyPoint.read? "query_number,transaction_type,mean_latency".toList text.toList
      p.latencies
  /-- The throughput, with two numbers for each bin. -/
  throughput : ∃ text,
    s.read (Path.join directory "throughput.csv") = .ok (Text.Utf8.encode text) ∧
    Csv.Holds ThroughputPoint.read? "bin_start,transactions_per_second".toList text.toList
      p.throughput

theorem isName_of_mem_files : ∀ file ∈ p.files, Path.IsName file.1 := by
  simp only [files, tables, documents, List.cons_append, List.nil_append, List.forall_mem_cons]
  exact ⟨⟨by decide, by decide, by decide⟩, ⟨by decide, by decide, by decide⟩,
    ⟨by decide, by decide, by decide⟩, List.forall_mem_nil _⟩

theorem nodup_files : (p.files.map Prod.fst).Nodup := by
  change ["latencies.csv", "throughput.csv", "plot_data.json"].Nodup
  decide

variable {p} {directory : String} {s t : Store}

/-- **The data is written** by making the directory and writing the files. -/
theorem writePlotData_eq_ok_iff {paths : List String} :
    (writePlotData directory p : ExceptT Error (StateM Store) _) s = (.ok paths, t) ↔
      ∃ u, (ensureDirectories (directory :: Path.above directory) :
          ExceptT FileError (StateM Store) Unit) s = (.ok (), u) ∧
        (writeFiles directory p.files : ExceptT FileError (StateM Store) _) u = (.ok paths, t) := by
  rw [writePlotData, Store.bind_apply_eq_ok_iff]
  constructor
  · rintro ⟨_, u, hdirectories, hfiles⟩
    obtain ⟨tables, next, htables, hrest⟩ := Store.bind_apply_eq_ok_iff.mp hfiles
    obtain ⟨documents, last, hdocuments, hpaths⟩ := Store.bind_apply_eq_ok_iff.mp hrest
    cases hpaths
    exact ⟨u, Store.adapt_apply_eq_ok_iff.mp hdirectories,
      Store.writeFiles_append_eq_ok_iff.mpr ⟨tables, next, documents,
        Store.adapt_apply_eq_ok_iff.mp htables, Store.adapt_apply_eq_ok_iff.mp hdocuments, rfl⟩⟩
  · rintro ⟨u, hdirectories, hfiles⟩
    obtain ⟨tables, next, documents, htables, hdocuments, rfl⟩ :=
      Store.writeFiles_append_eq_ok_iff.mp hfiles
    exact ⟨(), u, Store.adapt_apply_eq_ok_iff.mpr hdirectories,
      Store.bind_apply_eq_ok_iff.mpr ⟨tables, next, Store.adapt_apply_eq_ok_iff.mpr htables,
        Store.bind_apply_eq_ok_iff.mpr ⟨documents, t, Store.adapt_apply_eq_ok_iff.mpr hdocuments,
          rfl⟩⟩⟩

theorem isIn_of_writeFiles {paths : List String}
    (h : (writeFiles directory p.files : ExceptT FileError (StateM Store) _) s = (.ok paths, t)) :
    p.IsIn directory t := by
  have hread := Store.read_of_writeFiles p.isName_of_mem_files p.nodup_files h
  exact ⟨⟨p.latencyTable, hread ("latencies.csv", _) List.mem_cons_self, p.holds_latencyTable⟩,
    ⟨p.throughputTable, hread ("throughput.csv", _) (List.mem_cons_of_mem _ List.mem_cons_self),
      p.holds_throughputTable⟩⟩

/-- **Nothing of the series is lost.** Once data for plots was written into a directory, whatever
the series are and whatever was there before, the two files hold them. And the data is written
wherever the directory can be made and has room for files of these names. -/
theorem isIn_writePlotData (directory : String) (p : PlotData) (s : Store) :
    (∀ paths t, (writePlotData directory p : ExceptT Error (StateM Store) _) s = (.ok paths, t) →
      p.IsIn directory t) ∧
    ∀ u, (ensureDirectories (directory :: Path.above directory) :
        ExceptT FileError (StateM Store) Unit) s = (.ok (), u) →
      (∀ file ∈ p.files, u.Takes (Path.join directory file.1)) →
      ∃ t, (writePlotData directory p : ExceptT Error (StateM Store) _) s =
        (.ok (p.files.map fun file => Path.join directory file.1), t) := by
  constructor
  · intro paths t h
    obtain ⟨u, -, hfiles⟩ := writePlotData_eq_ok_iff.mp h
    exact isIn_of_writeFiles hfiles
  · intro u hdirectories htakes
    obtain ⟨t, hfiles⟩ := Store.exists_writeFiles p.isName_of_mem_files htakes
    exact ⟨t, writePlotData_eq_ok_iff.mpr ⟨u, hdirectories, hfiles⟩⟩

/-- Series with doubles that are not finite, a zero with a sign, and the ends of the range. -/
def extreme : PlotData where
  latencies := [⟨1, 7, 0.0 / 0.0⟩, ⟨22, 4294967295, 1.0 / 0.0⟩, ⟨3, 9, 5e-324⟩]
  throughput := [⟨-0.0, -1.0 / 0.0⟩, ⟨1e16, 0.00001⟩]
  binWidth := 5

/-- They are written into a new directory, and read from there. -/
theorem isIn_writePlotData_extreme :
    (ensureDirectories ("plots" :: Path.above "plots") :
        ExceptT FileError (StateM Store) Unit) .empty =
      (.ok (), ⟨[["work"], ["work", "plots"]], [], ["work"]⟩) ∧
    (∀ file ∈ extreme.files, Store.Takes ⟨[["work"], ["work", "plots"]], [], ["work"]⟩
      (Path.join "plots" file.1)) ∧
    ∃ t, (writePlotData "plots" extreme : ExceptT Error (StateM Store) _) .empty =
        (.ok ["plots/latencies.csv", "plots/throughput.csv", "plots/plot_data.json"], t) ∧
      extreme.IsIn "plots" t := by
  have hdirectories : (ensureDirectories ("plots" :: Path.above "plots") :
      ExceptT FileError (StateM Store) Unit) .empty =
      (.ok (), ⟨[["work"], ["work", "plots"]], [], ["work"]⟩) := by
    have hparts : "plots".splitOn "/" = ["plots"] :=
      Text.splitOn_singleton_of_notMem (c := '/') (by decide)
    have htarget : Store.empty.target "plots" = .ok (.name ["work"] "plots" false) := by
      rw [Store.target, hparts]
      rfl
    refine Store.ensureDirectories_of_makeDirectory ?_
    rw [Store.makeDirectory, htarget]
    rfl
  have htakes : ∀ file ∈ extreme.files,
      Store.Takes ⟨[["work"], ["work", "plots"]], [], ["work"]⟩ (Path.join "plots" file.1) := by
    have hnames := extreme.isName_of_mem_files
    simp only [files, tables, documents, List.cons_append, List.nil_append,
      List.forall_mem_cons] at hnames ⊢
    obtain ⟨hlatencies, hthroughput, hdocument, -⟩ := hnames
    exact ⟨Store.takes_join (by decide) hlatencies rfl rfl rfl,
      Store.takes_join (by decide) hthroughput rfl rfl rfl,
      Store.takes_join (by decide) hdocument rfl rfl rfl, List.forall_mem_nil _⟩
  obtain ⟨t, hwritten⟩ := (isIn_writePlotData "plots" extreme .empty).2 _ hdirectories htakes
  exact ⟨hdirectories, htakes, t, hwritten, (isIn_writePlotData _ _ _).1 _ _ hwritten⟩

end PlotData

end MixedWorkload
