import TrafficWatch.Proofs.Rules.Staleness

/-!
# Event — Route

Routes are normal forms of paths.  A text is a route if it is a slash and at most two names, with a
slash between two (`IsRoute`), and the names can be read back from it (`leadingNames_route`).  The
route of a path is made of the first names of the path (`routeOf_eq`), so

* these names are those of the route (`leadingNames_routeOf`), whence paths have the same route
  exactly when they begin with the same names (`routeOf_eq_iff`);
* what is a route already is its own (`IsRoute.routeOf_eq`).
-/

namespace TrafficWatch

/-- The first two names between the slashes of a path, or all of them when there are fewer. -/
def leadingNames (path : String) : List String :=
  (((path.toList.splitOn '/').map String.ofList).filter (· ≠ "")).take 2

/-- A name as it stands between slashes. -/
structure IsPathName (name : String) : Prop where
  nonempty : name ≠ ""
  unslashed : '/' ∉ name.toList

/-- A slash and at most two names, with a slash between two. -/
def IsRoute (route : String) : Prop :=
  ∃ names : List String, names.length ≤ 2 ∧ (∀ name ∈ names, IsPathName name) ∧
    route = "/" ++ "/".intercalate names

/-! ### Splitting and joining -/

theorem pieces_eq_splitOn (path : List Char) : pieces path = path.splitOn '/' := by
  induction path with
  | nil => rfl
  | cons c rest ih =>
      rw [pieces, List.splitOn_cons_eq_if_modifyHead, ih]
      by_cases hc : c = '/'
      · simp [hc]
      · cases hrest : rest.splitOn '/' with
        | nil => exact absurd hrest (List.splitOn_ne_nil _ _)
        | cons first more => simp [hc]

theorem notMem_of_mem_splitOn {path piece : List Char} (h : piece ∈ path.splitOn '/') :
    '/' ∉ piece := by
  induction path generalizing piece with
  | nil =>
      rw [List.splitOn_nil, List.mem_singleton] at h
      exact h ▸ List.not_mem_nil
  | cons c rest ih =>
      rw [List.splitOn_cons_eq_if_modifyHead] at h
      split at h
      · rcases List.mem_cons.mp h with rfl | hrest
        · exact List.not_mem_nil
        · exact ih hrest
      · rename_i hc
        have hne : '/' ≠ c := fun heq => hc (beq_iff_eq.mpr heq.symm)
        cases hrest : rest.splitOn '/' with
        | nil => exact absurd hrest (List.splitOn_ne_nil _ _)
        | cons first more =>
            rw [hrest] at h ih
            rcases List.mem_cons.mp h with rfl | hmore
            · exact List.not_mem_cons_of_ne_of_not_mem hne (ih List.mem_cons_self)
            · exact ih (List.mem_cons_of_mem _ hmore)

theorem pathOf_eq (segments : List (List Char)) :
    pathOf segments = '/' :: ['/'].intercalate segments := by
  fun_induction pathOf segments with
  | case1 => rfl
  | case2 segment => rw [List.intercalate_singleton]
  | case3 segment more hmore ih => simp [ih, List.intercalate_cons_of_ne_nil hmore]

/-! ### The names of a route -/

/-- The first segments of a path are its first names. -/
theorem map_segments (path : String) :
    ((segments path.toList).take 2).map String.ofList = leadingNames path := by
  have hempty : (fun piece : List Char => !piece.isEmpty) =
      (fun name : String => decide (name ≠ "")) ∘ String.ofList := by
    funext piece
    cases piece <;> simp
  rw [leadingNames, segments, pieces_eq_splitOn, List.map_take, List.filter_map, hempty]

/-- **The route of a path** is written with the first names of the path. -/
theorem routeOf_eq (path : String) : routeOf path = "/" ++ "/".intercalate (leadingNames path) := by
  rw [← map_segments, routeOf, pathOf_eq, ← String.toList_inj]
  simp

example : routeOf "//api//users/42" = "/" ++ "/".intercalate ["api", "users"] := by cbv

theorem isPathName_of_mem {path name : String} (h : name ∈ leadingNames path) : IsPathName name := by
  obtain ⟨hname, hne⟩ := List.mem_filter.mp (List.mem_of_mem_take h)
  obtain ⟨piece, hpiece, rfl⟩ := List.mem_map.mp hname
  refine ⟨of_decide_eq_true hne, ?_⟩
  rw [String.toList_ofList]
  exact notMem_of_mem_splitOn hpiece

/-- **The names of a route** can be read back from it. -/
theorem leadingNames_route {names : List String} (hlength : names.length ≤ 2)
    (hnames : ∀ name ∈ names, IsPathName name) :
    leadingNames ("/" ++ "/".intercalate names) = names := by
  cases names with
  | nil => rfl
  | cons first more =>
      have hunslashed : ∀ piece ∈ (first :: more).map String.toList, '/' ∉ piece :=
        List.forall_mem_map.mpr fun name hname => (hnames name hname).unslashed
      have hsplit : ("/" ++ "/".intercalate (first :: more)).toList.splitOn '/' =
          [] :: (first :: more).map String.toList :=
        calc ("/" ++ "/".intercalate (first :: more)).toList.splitOn '/'
          _ = ('/' :: ['/'].intercalate ((first :: more).map String.toList)).splitOn '/' := by
              rw [String.toList_append, String.toList_intercalate]
              rfl
          _ = [] :: (['/'].intercalate ((first :: more).map String.toList)).splitOn '/' := by
              rw [List.splitOn_cons_eq_if_modifyHead, if_pos (beq_self_eq_true _)]
          _ = [] :: (first :: more).map String.toList := by
              rw [List.splitOn_intercalate '/' hunslashed (List.cons_ne_nil _ _)]
      have hback : (first :: more).map (String.ofList ∘ String.toList) = first :: more :=
        (List.map_congr_left fun name _ => String.ofList_toList).trans (List.map_id _)
      have hkept : (first :: more).filter (· ≠ "") = first :: more :=
        List.filter_eq_self.mpr fun name hname => decide_eq_true (hnames name hname).nonempty
      rw [leadingNames, hsplit, List.map_cons, List.map_map, hback,
        List.filter_cons_of_neg (by decide), hkept, List.take_of_length_le hlength]

theorem length_leadingNames_le (path : String) : (leadingNames path).length ≤ 2 :=
  List.length_take_le _ _

theorem isRoute_routeOf (path : String) : IsRoute (routeOf path) :=
  ⟨leadingNames path, length_leadingNames_le path, fun _ => isPathName_of_mem, routeOf_eq path⟩

theorem leadingNames_routeOf (path : String) : leadingNames (routeOf path) = leadingNames path := by
  rw [routeOf_eq]
  exact leadingNames_route (length_leadingNames_le path) fun _ => isPathName_of_mem

/-- **Paths have the same route** exactly when they begin with the same names. -/
theorem routeOf_eq_iff (path other : String) :
    routeOf path = routeOf other ↔ leadingNames path = leadingNames other := by
  constructor
  · intro h
    rw [← leadingNames_routeOf path, h, leadingNames_routeOf]
  · intro h
    rw [routeOf_eq path, h, ← routeOf_eq]

/-- **A route is its own route.** -/
theorem IsRoute.routeOf_eq {route : String} (h : IsRoute route) : routeOf route = route := by
  obtain ⟨names, hlength, hnames, rfl⟩ := h
  rw [TrafficWatch.routeOf_eq, leadingNames_route hlength hnames]

/-! ### What is counted together -/

namespace Event

theorem windowKey_ofSignal (s : Signal) :
    (ofSignal s).windowKey = ⟨(ofSignal s).clientKey, routeOf s.path⟩ := rfl

theorem windowKey_eq_iff (s t : Signal) : (ofSignal s).windowKey = (ofSignal t).windowKey ↔
    (ofSignal s).clientKey = (ofSignal t).clientKey ∧ leadingNames s.path = leadingNames t.path := by
  rw [windowKey_ofSignal, windowKey_ofSignal, WindowKey.mk.injEq, routeOf_eq_iff]

/-- **Routes are normal forms.** The route of any path is a slash and at most two names with a slash
between two, it is its own route, and its names are the first of the path, so that two paths have the
same route exactly when their first two names agree, or all of them when there are fewer.  Hence the
route of a request is its own route.  Two requests have the same window exactly when their clients
and the first names of their paths agree: after one of them has been observed, the window of the
other is the one in which it was recorded, and otherwise the window that the other had. -/
theorem routes_canonical (path other : String) (s t : Signal) (d : RuleDetector) (now : Instant) :
    IsRoute (routeOf path) ∧
    routeOf (routeOf path) = routeOf path ∧
    leadingNames (routeOf path) = leadingNames path ∧
    (routeOf path = routeOf other ↔ leadingNames path = leadingNames other) ∧
    let e := ofSignal s
    let f := ofSignal t
    let swept := d.sweep now
    routeOf e.route = e.route ∧
    (e.windowKey = f.windowKey ↔
      e.clientKey = f.clientKey ∧ leadingNames s.path = leadingNames t.path) ∧
    (d.observe e now).2.windows.get? f.windowKey =
      if e.clientKey = f.clientKey ∧ leadingNames s.path = leadingNames t.path then
        some ((swept.windows.getOr e.windowKey (swept.freshWindow now)).record e now)
      else swept.windows.get? f.windowKey := by
  refine ⟨isRoute_routeOf path, (isRoute_routeOf path).routeOf_eq, leadingNames_routeOf path,
    routeOf_eq_iff path other, (isRoute_routeOf s.path).routeOf_eq, windowKey_eq_iff s t, ?_⟩
  have hkey : (ofSignal t).windowKey = (ofSignal s).windowKey ↔
      (ofSignal s).clientKey = (ofSignal t).clientKey ∧
        leadingNames s.path = leadingNames t.path :=
    eq_comm.trans (windowKey_eq_iff s t)
  exact (d.get?_windows_observe ⟨ofSignal s, now⟩ _).trans (if_congr hkey rfl rfl)

end Event

end TrafficWatch
