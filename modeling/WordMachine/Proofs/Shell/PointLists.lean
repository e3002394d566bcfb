import Mathlib.Data.List.Nodup
import WordMachine.Proofs.Numeral.Digits
import WordMachine.Proofs.Text.Lines
import WordMachine.Shell.Points

/-!
# Points as ordered sets

Breakpoints and watchpoints are kept in two lists. Whatever is asked of them, each list holds every
entry once and in the order in which the entries came, and a request to one of the lists leaves the
other alone. An entry is removed by the number that it is listed with.
-/

namespace WordMachine

namespace Points

/-! ## Ordered sets -/

/-- What can be asked of a list of points. -/
inductive Request (α : Type) where
  | add (entry : α)
  | remove (position : Int)
  | clear

/-- What is answered. -/
inductive Reply where
  | added (isNew : Bool)
  | removed
  | failed (error : PointError)
  | cleared
  deriving DecidableEq, Repr

variable {α β : Type}

/-- A request for what a function makes of an entry. -/
def Request.map (f : α → β) : Request α → Request β
  | add entry => add (f entry)
  | remove position => remove position
  | clear => clear

/-- How a set that remembers the order of its entries answers a request, and what it holds after
it. A position that holds no entry is refused. -/
inductive Answers (refusal : PointError) (entries : List α) : Request α → Reply → List α → Prop
  | present {entry : α} (h : entry ∈ entries) :
      Answers refusal entries (.add entry) (.added false) entries
  | absent {entry : α} (h : entry ∉ entries) :
      Answers refusal entries (.add entry) (.added true) (entries ++ [entry])
  | outside {position : Int} (h : position < 0 ∨ entries.length ≤ position) :
      Answers refusal entries (.remove position) (.failed refusal) entries
  | inside {before after : List α} {entry : α} (h : entries = before ++ entry :: after) :
      Answers refusal entries (.remove before.length) .removed (before ++ after)
  | clear : Answers refusal entries .clear .cleared []

variable {refusal : PointError} {entries left : List α} {request : Request α} {reply : Reply}

/-- No request brings an entry in twice. -/
theorem Answers.nodup (h : Answers refusal entries request reply left) (hentries : entries.Nodup) :
    left.Nodup := by
  cases h with
  | present => exact hentries
  | @absent entry habsent =>
      have hconcat : (entries.concat entry).Nodup := hentries.concat habsent
      rwa [List.concat_eq_append] at hconcat
  | outside => exact hentries
  | @inside before after entry hsplit =>
      rw [hsplit] at hentries
      exact hentries.sublist ((List.sublist_cons_self entry after).append_left before)
  | clear => exact List.nodup_nil

/-- A set of entries that are told apart by their images is answered for like a set of images. -/
theorem Answers.map (h : Answers refusal entries request reply left) {f : α → β}
    (hf : ∀ entry, request = .add entry → f entry ∈ entries.map f → entry ∈ entries) :
    Answers refusal (entries.map f) (request.map f) reply (left.map f) := by
  cases h with
  | present hpresent => exact .present (List.mem_map_of_mem hpresent)
  | absent habsent =>
      rw [List.map_append]
      exact .absent fun hmem => habsent (hf _ rfl hmem)
  | outside hposition =>
      apply Answers.outside
      rwa [List.length_map]
  | @inside before after entry hsplit =>
      have himages : entries.map f = before.map f ++ f entry :: after.map f := by
        rw [hsplit, List.map_append, List.map_cons]
      have hanswer : Answers refusal (entries.map f) (.remove (before.map f).length) .removed
          (before.map f ++ after.map f) := .inside himages
      rwa [List.length_map, ← List.map_append] at hanswer
  | clear => exact .clear

theorem Answers.mem_or_added (h : Answers refusal entries request reply left) {entry : α}
    (hentry : entry ∈ left) : entry ∈ entries ∨ request = .add entry := by
  cases h with
  | present => exact .inl hentry
  | absent =>
      rcases List.mem_append.mp hentry with hentry | hentry
      · exact .inl hentry
      · rw [List.mem_singleton.mp hentry]
        exact .inr rfl
  | outside => exact .inl hentry
  | inside hsplit =>
      rw [hsplit]
      exact .inl (List.mem_append.mpr
        ((List.mem_append.mp hentry).imp id (List.mem_cons_of_mem _)))
  | clear => cases hentry

theorem answers_addNew [DecidableEq α] (refusal : PointError) (entries : List α) (entry : α) :
    Answers refusal entries (.add entry) (.added (addNew entries entry).2)
      (addNew entries entry).1 := by
  unfold addNew
  split
  · next h => exact .present h
  · next h => exact .absent h

theorem answers_of_removeAt?_none {position : Int} (h : removeAt? entries position = none)
    (refusal : PointError) :
    Answers refusal entries (.remove position) (.failed refusal) entries := by
  unfold removeAt? at h
  split at h
  · next houtside => exact .outside houtside
  · cases h

theorem answers_of_removeAt?_some {position : Int} (h : removeAt? entries position = some left)
    (refusal : PointError) : Answers refusal entries (.remove position) .removed left := by
  unfold removeAt? at h
  split at h
  · cases h
  · next hinside =>
      obtain ⟨i, rfl⟩ := Int.eq_ofNat_of_zero_le (by omega : 0 ≤ position)
      have hi : i < entries.length := by omega
      rw [Int.toNat_natCast, Option.some.injEq, List.eraseIdx_eq_take_drop_succ] at h
      have hsplit : entries = entries.take i ++ entries[i] :: entries.drop (i + 1) := by
        rw [← List.drop_eq_getElem_cons hi, List.take_append_drop]
      have hanswer : Answers refusal entries (.remove (entries.take i).length) .removed
          (entries.take i ++ entries.drop (i + 1)) := .inside hsplit
      rwa [List.length_take_of_le (Nat.le_of_lt hi), h] at hanswer

end Points

/-! ## Watchpoints by address and number of their kind -/

namespace Watchpoint

/-- The address of a watchpoint and the number of its kind. -/
def key (w : Watchpoint) : Word × Nat := (w.address, w.kind.code)

/-- The watchpoint with an address and the number of a kind. -/
def ofKey (k : Word × Nat) : Watchpoint := ⟨k.1, .ofCode k.2⟩

theorem key_ofKey (k : Word × Nat) : (ofKey k).key = k := by
  have hcode (code : Nat) : (WatchKind.ofCode code).code = code := by
    fun_cases WatchKind.ofCode code <;> rfl
  exact Prod.ext rfl (hcode k.2)

end Watchpoint

namespace Shell

open Points

/-! ## Requests -/

/-- A request to the breakpoints or to the watchpoints of a debugger. -/
inductive PointRequest where
  | breakpoint (request : Request Word)
  | watchpoint (request : Request (Word × Nat))

/-- Carries out a request. Points are cleared by a command, and added and removed by the debugger
itself. -/
def carryOut (sh : Shell) : PointRequest → Shell × Reply
  | .breakpoint (.add address) =>
    let answer := sh.debugger.points.addBreakpoint address
    (sh.setPoints answer.1, .added answer.2)
  | .breakpoint (.remove position) =>
    match sh.debugger.points.removeBreakpoint position with
    | .error e => (sh, .failed e)
    | .ok points => (sh.setPoints points, .removed)
  | .breakpoint .clear => (sh.breakpoint .clear, .cleared)
  | .watchpoint (.add key) =>
    let answer := sh.debugger.points.addWatchpoint (.ofKey key)
    (sh.setPoints answer.1, .added answer.2)
  | .watchpoint (.remove position) =>
    match sh.debugger.points.removeWatchpoint position with
    | .error e => (sh, .failed e)
    | .ok points => (sh.setPoints points, .removed)
  | .watchpoint .clear => (sh.watchpoint .clear, .cleared)

/-- Carries out requests one after the other. -/
def carryOutAll (sh : Shell) (requests : List PointRequest) : Shell :=
  requests.foldl (fun sh request => (sh.carryOut request).1) sh

/-- Each request to the breakpoints is answered as a set answers it, and the watchpoints stay. -/
theorem carryOut_breakpoint (sh : Shell) (request : Request Word) :
    Answers .noBreakpoint sh.debugger.points.breakpoints request
        (sh.carryOut (.breakpoint request)).2
        (sh.carryOut (.breakpoint request)).1.debugger.points.breakpoints ∧
      (sh.carryOut (.breakpoint request)).1.debugger.points.watchpoints =
        sh.debugger.points.watchpoints := by
  cases request with
  | add address => exact ⟨answers_addNew _ _ address, rfl⟩
  | remove position =>
      cases hremove : removeAt? sh.debugger.points.breakpoints position with
      | none =>
          have hcarried : sh.carryOut (.breakpoint (.remove position)) =
              (sh, .failed .noBreakpoint) := by
            simp only [carryOut, Points.removeBreakpoint, hremove]
          rw [hcarried]
          exact ⟨answers_of_removeAt?_none hremove _, rfl⟩
      | some left =>
          have hcarried : sh.carryOut (.breakpoint (.remove position)) =
              (sh.setPoints { sh.debugger.points with breakpoints := left }, .removed) := by
            simp only [carryOut, Points.removeBreakpoint, hremove]
          rw [hcarried]
          exact ⟨answers_of_removeAt?_some hremove _, rfl⟩
  | clear => exact ⟨.clear, rfl⟩

/-- Each request to the watchpoints is answered as a set answers it, and the breakpoints stay. -/
theorem carryOut_watchpoint (sh : Shell) (request : Request (Word × Nat)) :
    Answers .noWatchpoint sh.debugger.points.watchpoints (request.map Watchpoint.ofKey)
        (sh.carryOut (.watchpoint request)).2
        (sh.carryOut (.watchpoint request)).1.debugger.points.watchpoints ∧
      (sh.carryOut (.watchpoint request)).1.debugger.points.breakpoints =
        sh.debugger.points.breakpoints := by
  cases request with
  | add key => exact ⟨answers_addNew _ _ (Watchpoint.ofKey key), rfl⟩
  | remove position =>
      cases hremove : removeAt? sh.debugger.points.watchpoints position with
      | none =>
          have hcarried : sh.carryOut (.watchpoint (.remove position)) =
              (sh, .failed .noWatchpoint) := by
            simp only [carryOut, Points.removeWatchpoint, hremove]
          rw [hcarried]
          exact ⟨answers_of_removeAt?_none hremove _, rfl⟩
      | some left =>
          have hcarried : sh.carryOut (.watchpoint (.remove position)) =
              (sh.setPoints { sh.debugger.points with watchpoints := left }, .removed) := by
            simp only [carryOut, Points.removeWatchpoint, hremove]
          rw [hcarried]
          exact ⟨answers_of_removeAt?_some hremove _, rfl⟩
  | clear => exact ⟨.clear, rfl⟩

/-! ## What every request keeps -/

/-- The watchpoints of a shell, by address and number of their kind. -/
def watchKeys (sh : Shell) : List (Word × Nat) := sh.debugger.points.watchpoints.map Watchpoint.key

/-- No point is there twice, and each watchpoint is known by its address and the number of its
kind. -/
structure HoldsSets (sh : Shell) : Prop where
  breakpoints : sh.debugger.points.breakpoints.Nodup
  watchpoints : sh.watchKeys.Nodup
  known : ∀ w ∈ sh.debugger.points.watchpoints, Watchpoint.ofKey w.key = w

/-- Watchpoints that are known by their keys are answered for by their keys. -/
theorem HoldsSets.answers_watchKeys {sh : Shell} (h : sh.HoldsSets)
    (request : Request (Word × Nat)) :
    Answers .noWatchpoint sh.watchKeys request (sh.carryOut (.watchpoint request)).2
      (sh.carryOut (.watchpoint request)).1.watchKeys := by
  obtain ⟨hanswers, -⟩ := carryOut_watchpoint sh request
  have hsame : (request.map Watchpoint.ofKey).map Watchpoint.key = request := by
    cases request with
    | add key => exact congrArg Request.add (Watchpoint.key_ofKey key)
    | remove position => rfl
    | clear => rfl
  have htold : ∀ entry, request.map Watchpoint.ofKey = .add entry → entry.key ∈ sh.watchKeys →
      entry ∈ sh.debugger.points.watchpoints := by
    intro entry hrequest hmem
    obtain ⟨w, hw, hkey⟩ := List.mem_map.mp hmem
    cases request with
    | add key =>
        obtain rfl := Request.add.inj hrequest
        rw [Watchpoint.key_ofKey] at hkey
        rwa [← hkey, h.known w hw]
    | remove position => cases hrequest
    | clear => cases hrequest
  have hkeys := hanswers.map htold
  rwa [hsame] at hkeys

/-- Requests leave sets behind. -/
theorem HoldsSets.carryOut {sh : Shell} (h : sh.HoldsSets) (request : PointRequest) :
    (sh.carryOut request).1.HoldsSets := by
  cases request with
  | breakpoint request =>
      obtain ⟨hanswers, hkept⟩ := carryOut_breakpoint sh request
      exact
        { breakpoints := hanswers.nodup h.breakpoints
          watchpoints := by
            rw [watchKeys, hkept]
            exact h.watchpoints
          known := by
            rw [hkept]
            exact h.known }
  | watchpoint request =>
      obtain ⟨hanswers, hkept⟩ := carryOut_watchpoint sh request
      exact
        { breakpoints := by
            rw [hkept]
            exact h.breakpoints
          watchpoints := (h.answers_watchKeys request).nodup h.watchpoints
          known := by
            intro w hw
            rcases hanswers.mem_or_added hw with hw | hadded
            · exact h.known w hw
            · cases request with
              | add key =>
                  obtain rfl := Request.add.inj hadded
                  rw [Watchpoint.key_ofKey]
              | remove position => cases hadded
              | clear => cases hadded }

theorem HoldsSets.carryOutAll {sh : Shell} (h : sh.HoldsSets) (requests : List PointRequest) :
    (sh.carryOutAll requests).HoldsSets := by
  induction requests generalizing sh with
  | nil => exact h
  | cons request requests ih => exact ih (h.carryOut request)

theorem holdsSets_start (support : Support) (image : Image) (symbols : Option Symbols)
    (input : Input) : (start support image symbols input).HoldsSets :=
  ⟨List.nodup_nil, List.nodup_nil, fun _ hw => by cases hw⟩

/-- A request that adds nothing new, or that names no entry, leaves the shell as it is. -/
theorem carryOut_of_refused {sh : Shell} {request : PointRequest}
    (h : (sh.carryOut request).2 = .added false ∨
      ∃ error, (sh.carryOut request).2 = .failed error) : (sh.carryOut request).1 = sh := by
  cases request with
  | breakpoint request =>
      cases request with
      | add address =>
          by_cases hmem : address ∈ sh.debugger.points.breakpoints
          · simp [carryOut, Points.addBreakpoint, addNew, hmem, setPoints]
          · simp [carryOut, Points.addBreakpoint, addNew, hmem] at h
      | remove position =>
          cases hremove : removeAt? sh.debugger.points.breakpoints position with
          | none => simp [carryOut, Points.removeBreakpoint, hremove]
          | some left => simp [carryOut, Points.removeBreakpoint, hremove] at h
      | clear => simp [carryOut] at h
  | watchpoint request =>
      cases request with
      | add key =>
          by_cases hmem : Watchpoint.ofKey key ∈ sh.debugger.points.watchpoints
          · simp [carryOut, Points.addWatchpoint, addNew, hmem, setPoints]
          · simp [carryOut, Points.addWatchpoint, addNew, hmem] at h
      | remove position =>
          cases hremove : removeAt? sh.debugger.points.watchpoints position with
          | none => simp [carryOut, Points.removeWatchpoint, hremove]
          | some left => simp [carryOut, Points.removeWatchpoint, hremove] at h
      | clear => simp [carryOut] at h

/-! ## Listings -/

/-- A row of a listing: the number of an entry, and what is shown of it. -/
def row (i : Nat) (t : Text) : Text :=
  Text.ascii "#" ++ Numeral.decimal i ++ Text.ascii ": " ++ t

theorem lineFeed_not_mem_row {t : Text} (h : Text.lineFeed ∉ t) (i : Nat) :
    Text.lineFeed ∉ row i t := by
  have hdecimal : Text.lineFeed ∉ Numeral.decimal i := fun hmem =>
    (Numeral.isPlain_of_mem_padded (by decide) (by decide) hmem).2 rfl
  simp only [row, List.mem_append, not_or]
  exact ⟨⟨⟨by decide, hdecimal⟩, by decide⟩, h⟩

/-- A shell prints a listing that has one row for each entry, with the numbers in order. -/
def Lists (sh printed : Shell) (shown : List Text) : Prop :=
  ∃ listing, printed = sh.print listing ∧
    ∀ i : Nat, (Text.rawLines listing)[i]? = shown[i]?.map (row i)

theorem lists_numbered (sh : Shell) {shown : List Text} (h : ∀ t ∈ shown, Text.lineFeed ∉ t) :
    sh.Lists (sh.print (numbered shown)) shown := by
  refine ⟨numbered shown, rfl, fun i => ?_⟩
  have hrows : numbered shown = Text.unlines (shown.zipIdx.map fun p => row p.2 p.1) := rfl
  have hfeed : ∀ l ∈ shown.zipIdx.map fun p => row p.2 p.1, Text.lineFeed ∉ l := by
    intro l hl
    obtain ⟨p, hp, rfl⟩ := List.mem_map.mp hl
    exact lineFeed_not_mem_row (h p.1 (List.fst_mem_of_mem_zipIdx hp)) p.2
  rw [hrows, Text.rawLines_unlines hfeed, List.getElem?_map, List.getElem?_zipIdx, Option.map_map]
  simp [Function.comp_def]

theorem lineFeed_not_mem_octal (w : Word) : Text.lineFeed ∉ w.octal := fun hmem =>
  (Numeral.isPlain_of_mem_padded (by decide) (by decide) hmem).2 rfl

theorem lists_breakpoints (sh : Shell) :
    sh.Lists (sh.breakpoint .list) (sh.debugger.points.breakpoints.map Word.octal) := by
  apply lists_numbered
  intro t ht
  obtain ⟨address, -, rfl⟩ := List.mem_map.mp ht
  exact lineFeed_not_mem_octal address

/-- What is shown of a watchpoint. -/
def shownWatch (key : Word × Nat) : Text :=
  key.1.octal ++ [Text.space] ++ (WatchKind.ofCode key.2).name

theorem lineFeed_not_mem_shownWatch (key : Word × Nat) : Text.lineFeed ∉ shownWatch key := by
  have hname (kind : WatchKind) : Text.lineFeed ∉ kind.name := by
    cases kind <;> simp only [WatchKind.name] <;> decide
  simp only [shownWatch, List.mem_append, not_or]
  exact ⟨⟨lineFeed_not_mem_octal key.1, by decide⟩, hname _⟩

theorem HoldsSets.lists_watchpoints {sh : Shell} (h : sh.HoldsSets) :
    sh.Lists (sh.watchpoint .list) (sh.watchKeys.map shownWatch) := by
  have hshown : (sh.debugger.points.watchpoints.map fun w =>
      w.address.octal ++ [Text.space] ++ w.kind.name) = sh.watchKeys.map shownWatch := by
    rw [watchKeys, List.map_map]
    apply List.map_congr_left
    intro w hw
    have hkind : WatchKind.ofCode w.kind.code = w.kind := congrArg Watchpoint.kind (h.known w hw)
    simp only [Function.comp_apply, shownWatch, Watchpoint.key, hkind]
  rw [← hshown]
  apply lists_numbered
  rw [hshown]
  intro t ht
  obtain ⟨key, -, rfl⟩ := List.mem_map.mp ht
  exact lineFeed_not_mem_shownWatch key

/-! ## Sequences of requests -/

/-- The two lists of a shell behave as sets that remember the order of their entries. -/
structure ActsAsSets (sh : Shell) : Prop where
  breakpointsOnce : sh.debugger.points.breakpoints.Nodup
  watchpointsOnce : sh.watchKeys.Nodup
  breakpointAnswers : ∀ request,
    Answers .noBreakpoint sh.debugger.points.breakpoints request
      (sh.carryOut (.breakpoint request)).2
      (sh.carryOut (.breakpoint request)).1.debugger.points.breakpoints
  watchpointAnswers : ∀ request,
    Answers .noWatchpoint sh.watchKeys request (sh.carryOut (.watchpoint request)).2
      (sh.carryOut (.watchpoint request)).1.watchKeys
  /-- Neither an entry that is there already nor a position without entry changes anything. -/
  refused : ∀ request, ((sh.carryOut request).2 = .added false ∨
    ∃ error, (sh.carryOut request).2 = .failed error) → (sh.carryOut request).1 = sh
  watchpointsKept : ∀ request,
    (sh.carryOut (.breakpoint request)).1.debugger.points.watchpoints =
      sh.debugger.points.watchpoints
  breakpointsKept : ∀ request,
    (sh.carryOut (.watchpoint request)).1.debugger.points.breakpoints =
      sh.debugger.points.breakpoints
  /-- The position of an entry is the number that it is listed with. -/
  breakpointsListed :
    sh.Lists (sh.breakpoint .list) (sh.debugger.points.breakpoints.map Word.octal)
  watchpointsListed : sh.Lists (sh.watchpoint .list) (sh.watchKeys.map shownWatch)

/-- After any requests to a debugger that had no points, its breakpoints and its watchpoints are
sets that remember the order of their entries. -/
theorem points_are_ordered_sets (support : Support) (image : Image) (symbols : Option Symbols)
    (input : Input) (requests : List PointRequest) :
    ((start support image symbols input).carryOutAll requests).ActsAsSets := by
  have hsets := (holdsSets_start support image symbols input).carryOutAll requests
  generalize (start support image symbols input).carryOutAll requests = sh at hsets ⊢
  exact
    { breakpointsOnce := hsets.breakpoints
      watchpointsOnce := hsets.watchpoints
      breakpointAnswers := fun request => (carryOut_breakpoint sh request).1
      watchpointAnswers := hsets.answers_watchKeys
      refused := fun _ hrefused => carryOut_of_refused hrefused
      watchpointsKept := fun request => (carryOut_breakpoint sh request).2
      breakpointsKept := fun request => (carryOut_watchpoint sh request).2
      breakpointsListed := lists_breakpoints sh
      watchpointsListed := hsets.lists_watchpoints }

end Shell

end WordMachine
