import Doupro.Cli.Reaches
import Doupro.Go.Strconv
import Doupro.Store.EventFilters

/-!
# The event log in the browser, in an export and on the command line

The Logs page, the file its Export button saves and `doupro logs` are three ways to the same
query. The filter goes through a URL on the way to two of them.
-/

namespace Doupro.Api

open Cli Query ServeMux Store Text

/-- The filter `handleListLogs` reads off the query of a request. -/
def listLogsFilter (query : Text) : EventFilter where
  eventType := get query "event".toList
  container := get query "container".toList
  level := get query "level".toList
  limit := (atoi (String.ofList (get query "limit".toList))).getD 0

/-- The filter of the Logs page, with the page size of the settings. -/
def logsPageFilter (query : Text) (pageSize : Int) : EventFilter where
  container := get query "container".toList
  eventType := get query "event".toList
  level := get query "level".toList
  limit := pageSize

/-- The parameters of `exportLogsURL`. -/
def exportValues (filter : EventFilter) : Values :=
  setNonempty "container" filter.container ++ (setNonempty "event" filter.eventType ++
    (setNonempty "level" filter.level ++
      [("limit".toList, (toString maxLogsPageSize).toList), ("download".toList, "1".toList)]))

/-- `exportLogsURL`. -/
def exportLogsURL (filter : EventFilter) : Text :=
  "/api/v1/logs?".toList ++ encode (exportValues filter)

/-! ### What the daemon reads -/

theorem exportValues_keys (filter : EventFilter) : ((exportValues filter).map Prod.fst).Nodup := by
  have hkeys := (setNonempty_keys "container" filter.container).append
    ((setNonempty_keys "event" filter.eventType).append
      ((setNonempty_keys "level" filter.level).append
        (List.Sublist.refl ["limit".toList, "download".toList])))
  have hnodup : ["container".toList, "event".toList, "level".toList, "limit".toList,
      "download".toList].Nodup := by decide +kernel
  refine List.Nodup.sublist ?_ hnodup
  simpa [exportValues] using hkeys

/-- The filter that is read off parameters that arrive as they were set. -/
theorem listLogsFilter_eq {query l : Text} {values : Values} {filter : EventFilter}
    (hread : ∀ key, get query key = (values.lookup key).getD [])
    (htype : (values.lookup "event".toList).getD [] = filter.eventType)
    (hcontainer : (values.lookup "container".toList).getD [] = filter.container)
    (hlevel : (values.lookup "level".toList).getD [] = filter.level)
    (hsize : (values.lookup "limit".toList).getD [] = l)
    (hlimit : (atoi (String.ofList l)).getD 0 = filter.limit) :
    listLogsFilter query = filter := by
  unfold listLogsFilter
  rw [hread, hread, hread, hread, htype, hcontainer, hlevel, hsize, hlimit]

/-- The daemon reads the filter of an export off the link. -/
theorem listLogsFilter_export (filter : EventFilter) :
    listLogsFilter (encode (exportValues filter)) = { filter with limit := maxLogsPageSize } := by
  have hlimit : atoi (toString maxLogsPageSize) = some maxLogsPageSize :=
    atoi_toString (by decide) (by decide)
  refine listLogsFilter_eq (l := (toString maxLogsPageSize).toList)
    (get_encode (exportValues_keys filter)) ?_ ?_ ?_ ?_ ?_
  · simp [exportValues, lookup_setNonempty, List.lookup_cons]
  · simp [exportValues, lookup_setNonempty, List.lookup_cons]
  · simp [exportValues, lookup_setNonempty, List.lookup_cons]
  · simp [exportValues, lookup_setNonempty]
  · rw [String.ofList_toList, hlimit, Option.getD_some]

/-- The daemon reads the filter of the command line off its request. -/
theorem listLogsFilter_command (f : LogFilter) (hlimit : f.limit < 2 ^ 63) :
    listLogsFilter (targetQuery (Call.listLogs f).sent.target) =
      ⟨f.event, f.container, f.level, max f.limit 0⟩ := by
  have hread := (call_reaches (.listLogs f) true (by simp [Call.argument])).2
  have hquery : (Call.listLogs f).sent.query = logsQuery f := rfl
  rw [hquery, logsQuery] at hread
  by_cases hpos : 0 < f.limit
  · have hvalue : atoi (toString f.limit) = some f.limit := atoi_toString (by omega) hlimit
    rw [if_pos hpos] at hread
    refine listLogsFilter_eq (l := (toString f.limit).toList) hread ?_ ?_ ?_ ?_ ?_
    · simp [lookup_setNonempty, List.lookup_cons]
    · simp [lookup_setNonempty, List.lookup_cons]
    · simp [lookup_setNonempty, List.lookup_cons]
    · simp [lookup_setNonempty]
    · rw [String.ofList_toList, hvalue, Option.getD_some]
      exact (Int.max_eq_left (Int.le_of_lt hpos)).symm
  · rw [if_neg hpos, List.append_nil] at hread
    refine listLogsFilter_eq (l := []) hread ?_ ?_ ?_ ?_ ?_
    · simp [lookup_setNonempty, lookup_setNonempty_last]
    · simp [lookup_setNonempty, lookup_setNonempty_last]
    · simp [lookup_setNonempty, lookup_setNonempty_last]
    · simp [lookup_setNonempty, lookup_setNonempty_last]
    · exact (Int.max_eq_right (Int.not_lt.mp hpos)).symm

/-! ### What is shown -/

/-- A larger page begins with a smaller one. -/
theorem selectRows_take {ρ : Type} {accepts : ρ → Except String Bool} {m n : Nat} (hmn : m ≤ n)
    {rows all : List ρ} (h : selectRows accepts n rows = .ok all) :
    selectRows accepts m rows = .ok (all.take m) := by
  induction rows generalizing m n all with
  | nil =>
    cases m with
    | zero => simp [selectRows]
    | succ m =>
      cases n with
      | zero => omega
      | succ n =>
        obtain rfl := Except.ok.inj h
        rfl
  | cons row rows ih =>
    cases m with
    | zero => simp [selectRows]
    | succ m =>
      cases n with
      | zero => omega
      | succ n =>
        rw [selectRows] at h ⊢
        cases haccepts : accepts row with
        | error text => simp [haccepts, bind, Except.bind] at h
        | ok accepted =>
          simp only [haccepts, bind, Except.bind] at h ⊢
          cases accepted with
          | false => exact ih hmn h
          | true =>
            simp only [if_true] at h ⊢
            cases hrest : selectRows accepts n rows with
            | error text => simp [hrest] at h
            | ok rest =>
              simp only [hrest] at h
              obtain rfl := Except.ok.inj h
              rw [ih (Nat.le_of_succ_le_succ hmn) hrest]
              rfl

theorem pageSize_le (filter : EventFilter) :
    filter.pageSize ≤ ({ filter with limit := maxLogsPageSize } : EventFilter).pageSize := by
  unfold EventFilter.pageSize
  simp only [maxLogsPageSize, defaultLogsPageSize]
  split <;> split <;> omega

/-- The Export button of a page leads to the handler of the log, and what it saves begins with
what the page shows, whatever the texts of the filter. -/
theorem export_covers_page (filter : EventFilter) (oidcProvider : Bool) :
    handled (findHandler (mux oidcProvider) "GET".toList (targetPath (exportLogsURL filter))) =
        some (.handleListLogs, []) ∧
      ∀ rows all, listEvents none (listLogsFilter (targetQuery (exportLogsURL filter))) rows =
        .ok all → listEvents none filter rows = .ok (all.take filter.pageSize) := by
  have hroute := (call_reaches (.listLogs ⟨[], [], [], 0⟩) oidcProvider (by simp [Call.argument])).1
  have hsharp := encode_delimiter (c := '#') (by decide) (by decide) (by decide)
    (exportValues filter)
  have htarget : targetPath (exportLogsURL filter) = "/api/v1/logs".toList ∧
      targetQuery (exportLogsURL filter) = encode (exportValues filter) := by
    have hurl : exportLogsURL filter =
        "/api/v1/logs".toList ++ '?' :: encode (exportValues filter) := by
      have hsplit : "/api/v1/logs?".toList = "/api/v1/logs".toList ++ ['?'] := by decide +kernel
      exact (congrArg (· ++ encode (exportValues filter)) hsplit).trans (List.append_assoc ..)
    have hno : '#' ∉ "/api/v1/logs".toList ++ '?' :: encode (exportValues filter) := by
      rw [List.mem_append, List.mem_cons]
      rintro (hpath | hmark | hquery)
      · exact absurd hpath (by decide +kernel)
      · exact absurd hmark (by decide)
      · exact hsharp hquery
    unfold targetPath targetQuery
    rw [hurl, cut_of_notMem hno, cut_append (by decide +kernel)]
    simp [cut]
  rw [htarget.1, htarget.2, listLogsFilter_export]
  refine ⟨hroute, fun rows all h => ?_⟩
  unfold listEvents at h ⊢
  simp only at h ⊢
  have haccepts : (fun r : Nat × EventRow => ({ filter with limit := maxLogsPageSize } :
      EventFilter).accepts r.2) = fun r => filter.accepts r.2 := rfl
  rw [haccepts] at h
  split at h
  · cases h
  · next records hrecords =>
    obtain rfl := Except.ok.inj h
    rw [selectRows_take (pageSize_le filter) hrecords]

end Doupro.Api
