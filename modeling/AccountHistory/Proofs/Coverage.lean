import Mathlib.Data.List.Chain
import AccountHistory.Collection.Collection

/-!
# What synced windows cover

Several flows may sync one symbol and timeframe at once. Each plans a window from what is tracked at
that moment and reports it later or never, so windows overlap and reports come late, in another
order or more than once. Still a collection never tracks a time that nobody fetched:

* `Progress` is a collection with what its flows have planned and reported so far, and `Move` is
  what a flow does to it;
* `Progress.Covering` is kept by every move: what is reported has no gap up to the latest time
  covered, nor up to the start of any window that was planned, so that its report leaves none;
* `Progress.Seamless` is kept as long as every window is reported before the next one is planned:
  then each window starts where the last one ended.
-/

namespace AccountHistory

/-! ## Windows -/

namespace FetchWindow

/-- The times in a window are those from its start to its finish. -/
instance : Membership Int FetchWindow := ⟨fun w t => w.start ≤ t ∧ t ≤ w.finish⟩

theorem mem_def {w : FetchWindow} {t : Int} : t ∈ w ↔ w.start ≤ t ∧ t ≤ w.finish := Iff.rfl

/-- What is reported of a window. -/
def range (w : FetchWindow) : SyncRange :=
  match w.pass with
  | .base => .base w.start w.finish
  | .current => .current w.start w.finish

@[simp] theorem coveredTo_range (w : FetchWindow) : w.range.coveredTo = some w.finish := by
  rw [range]
  cases w.pass <;> rfl

theorem after_le (t : Int) : after t ≤ t + 1 := by
  rw [after]
  split <;> omega

theorem after_of_lt {t : Int} (h : t < Width.int64.greatest) : after t = t + 1 := if_pos h

/-- The windows leave no gap from a first time up to a bound, which itself is left out. -/
def Filled (ws : List FetchWindow) (first bound : Int) : Prop :=
  ∀ t, first ≤ t → t < bound → ∃ w ∈ ws, t ∈ w

variable {ws ws' : List FetchWindow} {w : FetchWindow} {first bound bound' : Int}

theorem filled_self (ws : List FetchWindow) (first : Int) : Filled ws first first := by
  intro t hfirst hbound
  omega

theorem Filled.mono (h : Filled ws first bound) (hsub : ws ⊆ ws') (hle : bound' ≤ bound) :
    Filled ws' first bound' := by
  intro t hfirst hbound
  obtain ⟨w, hw, ht⟩ := h t hfirst (by omega)
  exact ⟨w, hsub hw, ht⟩

/-- A window that starts within what is filled, or right behind it, carries it on. -/
theorem Filled.concat (h : Filled ws first w.start) : Filled (ws ++ [w]) first (w.finish + 1) := by
  intro t hfirst hbound
  by_cases hstart : t < w.start
  · exact h.mono (List.subset_append_left ws [w]) (Int.le_refl _) t hfirst hstart
  · refine ⟨w, List.mem_append_right ws (List.mem_singleton_self w), ?_⟩
    rw [mem_def]
    omega

end FetchWindow

/-! ## Ranges -/

namespace SyncRange

variable {a b c d : Option Int} {r s : SyncRange}

/-- Both ends of a span are there and in order, or none is. -/
def IsSpan : Option Int → Option Int → Prop
  | none, none => True
  | some start, some finish => start ≤ finish
  | _, _ => False

theorem IsSpan.ordered (h : IsSpan a b) : ordered a b = true := by
  cases a <;> cases b
  case some.some => exact decide_eq_true h
  all_goals rfl

theorem IsSpan.widen (h : IsSpan a b) (h' : IsSpan c d) :
    IsSpan (earliest a c) (latest b d) := by
  cases a <;> cases b <;> cases c <;> cases d <;> simp only [IsSpan, earliest, latest] at *
  · exact h'
  · exact h
  · omega

/-- Of each pass both ends are there and in order, or none is. -/
def IsSpanned (r : SyncRange) : Prop :=
  IsSpan r.baseFrom r.baseTo ∧ IsSpan r.currFrom r.currTo

theorem IsSpanned.isConsistent (h : r.IsSpanned) : r.isConsistent = true := by
  rw [SyncRange.isConsistent, h.1.ordered, h.2.ordered]
  rfl

/-- Merging keeps spans; of ranges that have one end only it would not keep even the order. -/
theorem IsSpanned.merge (h : r.IsSpanned) (h' : s.IsSpanned) : (r.merge s).IsSpanned :=
  ⟨h.1.widen h'.1, h.2.widen h'.2⟩

theorem isSpanned_range {w : FetchWindow} (h : w.start ≤ w.finish) : w.range.IsSpanned := by
  rw [FetchWindow.range]
  cases w.pass with
  | base => exact ⟨h, trivial⟩
  | current => exact ⟨trivial, h⟩

theorem coveredTo_merge (r s : SyncRange) :
    (r.merge s).coveredTo = latest r.coveredTo s.coveredTo := by
  simp only [coveredTo, merge, latest_assoc]
  rw [← latest_assoc s.baseTo, latest_comm s.baseTo, latest_assoc]

/-- The latest of times, with one more at their end. -/
theorem max?_concat (ts : List Int) (t : Int) :
    (ts ++ [t]).max? = latest ts.max? (some t) := by
  cases ts with
  | nil => rfl
  | cons first rest =>
    rw [List.cons_append, List.max?_cons', List.foldl_append, List.max?_cons']
    rfl

end SyncRange

/-! ## Entries -/

namespace TrackedRange

variable {symbol other : String} {timeframe otherFrame : Option String} {range : SyncRange}
  {entries : List TrackedRange}

theorem isFor_iff {e : TrackedRange} :
    e.isFor symbol timeframe = true ↔ e.symbol = symbol ∧ e.timeframe = timeframe := by
  rw [isFor, Bool.and_eq_true, beq_iff_eq, beq_iff_eq]

theorem trackedRange?_cons (e : TrackedRange) (rest : List TrackedRange) :
    trackedRange? (e :: rest) symbol timeframe
      = if e.isFor symbol timeframe then some e.range
        else trackedRange? rest symbol timeframe := by
  rw [trackedRange?, List.find?_cons]
  split
  case h_1 hfor => rw [if_pos hfor, Option.map_some]
  case h_2 hfor => rw [hfor, if_neg Bool.false_ne_true, trackedRange?]

theorem trackedRange?_mergeInto :
    trackedRange? (mergeInto symbol timeframe range entries).1 symbol timeframe
      = some ((trackedRange? entries symbol timeframe).elim range (·.merge range)) := by
  induction entries with
  | nil =>
    rw [mergeInto, trackedRange?_cons, if_pos (isFor_iff.mpr ⟨rfl, rfl⟩)]
    rfl
  | cons e rest ih =>
    rw [mergeInto]
    split
    case isTrue hfor =>
      have hmerged : isFor { e with range := e.range.merge range } symbol timeframe = true := hfor
      rw [trackedRange?_cons, trackedRange?_cons, if_pos hfor, if_pos hmerged]
      rfl
    case isFalse hfor =>
      rw [trackedRange?_cons, trackedRange?_cons, if_neg hfor, if_neg hfor]
      exact ih

/-- A report leaves the other entries as they are. -/
theorem trackedRange?_mergeInto_of_ne (h : ¬(other = symbol ∧ otherFrame = timeframe)) :
    trackedRange? (mergeInto other otherFrame range entries).1 symbol timeframe
      = trackedRange? entries symbol timeframe := by
  -- no entry is of both places
  have hnot (e : TrackedRange) (he : e.symbol = other ∧ e.timeframe = otherFrame) :
      ¬e.isFor symbol timeframe = true := by
    obtain ⟨rfl, rfl⟩ := he
    exact fun hfor => h (isFor_iff.mp hfor)
  induction entries with
  | nil =>
    rw [mergeInto, trackedRange?_cons, if_neg (hnot ⟨other, otherFrame, range⟩ ⟨rfl, rfl⟩)]
  | cons e rest ih =>
    rw [mergeInto]
    split
    case isTrue hfor =>
      have hplace := isFor_iff.mp hfor
      rw [trackedRange?_cons, trackedRange?_cons, if_neg (hnot e hplace),
        if_neg (hnot { e with range := e.range.merge range } hplace)]
    case isFalse =>
      rw [trackedRange?_cons, trackedRange?_cons]
      exact congrArg (ite _ _) ih

end TrackedRange

/-! ## Flows -/

/-- What flows keep in sync. -/
structure SyncTask where
  /-- the symbol -/
  symbol : String
  /-- the timeframe, for collections that have one -/
  timeframe : Option String
  /-- the configured start, if there is one -/
  configured : Option Int
  deriving DecidableEq, Repr

namespace SyncTask

/-- The first time to be fetched at all. -/
def origin (k : SyncTask) : Int := k.configured.getD 0

/-- What a collection has of the task. -/
def range? (k : SyncTask) (c : Collection) : Option SyncRange :=
  c.trackedRange? k.symbol k.timeframe

/-- The latest time that a collection has of the task. -/
def coveredTo (k : SyncTask) (c : Collection) : Option Int :=
  (k.range? c).bind SyncRange.coveredTo

/-- The window of the task to fetch next. -/
def next? (k : SyncTask) (c : Collection) (now : Int) : Option FetchWindow :=
  FetchWindow.plan (k.range? c) k.configured now

/-- Where the window to fetch next starts. -/
def first (k : SyncTask) (c : Collection) : Int :=
  (k.coveredTo c).elim k.origin FetchWindow.after

variable {k : SyncTask} {c : Collection} {now : Int} {w : FetchWindow}

/-- The window to fetch next goes from there to the time asked for, unless that is before it. -/
theorem next?_eq (k : SyncTask) (c : Collection) (now : Int) : k.next? c now =
    if k.first c ≤ now then
      some ⟨k.first c, now, if (k.coveredTo c).isNone then .base else .current⟩
    else none := by
  rw [next?, FetchWindow.plan, ← coveredTo, first]
  cases k.coveredTo c <;> rfl

theorem next?_eq_none : k.next? c now = none ↔ now < k.first c := by
  rw [next?_eq]
  split
  case isTrue hle => exact iff_of_false (Option.some_ne_none _) (Int.not_lt.mpr hle)
  case isFalse hlt => exact iff_of_true rfl (Int.not_le.mp hlt)

theorem next?_eq_some (h : k.next? c now = some w) :
    w.start = k.first c ∧ w.finish = now ∧ w.start ≤ w.finish ∧
      (w.pass = .base ↔ k.coveredTo c = none) := by
  rw [next?_eq, Option.ite_none_right_eq_some] at h
  obtain ⟨hle, hw⟩ := h
  obtain rfl := Option.some.inj hw
  refine ⟨rfl, rfl, hle, ?_⟩
  cases k.coveredTo c <;> simp

theorem range?_report : k.range? (c.report k.symbol k.timeframe w.range).1
    = some ((k.range? c).elim w.range (·.merge w.range)) :=
  TrackedRange.trackedRange?_mergeInto

theorem coveredTo_report : k.coveredTo (c.report k.symbol k.timeframe w.range).1
    = SyncRange.latest (k.coveredTo c) (some w.finish) := by
  rw [coveredTo, range?_report, coveredTo]
  cases k.range? c with
  | none => exact w.coveredTo_range
  | some r =>
    exact (SyncRange.coveredTo_merge r w.range).trans (by rw [w.coveredTo_range]; rfl)

end SyncTask

/-- A collection, and what the flows of a task have done to it. -/
structure Progress (ι : Type) where
  /-- the collection as it is now -/
  collection : Collection
  /-- the window that each flow has planned last -/
  latest : ι → Option FetchWindow
  /-- the times up to which a window was asked for -/
  asked : List Int
  /-- the windows that were planned, in order -/
  planned : List FetchWindow
  /-- the windows that were reported, in order -/
  reported : List FetchWindow

/-- What is done to a collection that is being synced. -/
inductive Move (ι : Type) where
  /-- a flow plans what to fetch next -/
  | plan (flow : ι) (now : Int)
  /-- a flow reports what it has planned last -/
  | report (flow : ι)
  /-- something else is reported, of another symbol or timeframe -/
  | elsewhere (symbol : String) (timeframe : Option String) (range : SyncRange)

section Flows

variable {ι : Type}

/-- The progress after a move. -/
def Move.step [DecidableEq ι] (k : SyncTask) : Move ι → Progress ι → Progress ι
  | .plan flow now, s =>
    match k.next? s.collection now with
    | none => { s with asked := s.asked ++ [now] }
    | some w =>
      { s with
        latest := fun other => if other = flow then some w else s.latest other
        asked := s.asked ++ [now]
        planned := s.planned ++ [w] }
  | .report flow, s =>
    match s.latest flow with
    | none => s
    | some w =>
      { s with
        collection := (s.collection.report k.symbol k.timeframe w.range).1
        reported := s.reported ++ [w] }
  | .elsewhere symbol timeframe range, s =>
    if symbol = k.symbol ∧ timeframe = k.timeframe then s
    else { s with collection := (s.collection.report symbol timeframe range).1 }

/-- A window is planned in time if all windows before it have been reported, and the last of all
times is still to come. -/
def Move.IsPrompt : Move ι → Progress ι → Prop
  | .plan _ now, s => s.planned ⊆ s.reported ∧ now < Width.int64.greatest
  | _, _ => True

namespace Progress

/-- Nothing has been planned yet. -/
def start (ι : Type) (c : Collection) : Progress ι := ⟨c, fun _ => none, [], [], []⟩

/-- The progress after moves, one after the other. -/
def run [DecidableEq ι] (k : SyncTask) (moves : List (Move ι)) (s : Progress ι) : Progress ι :=
  moves.foldl (fun s m => m.step k s) s

/-- Every window is planned in time. -/
def IsPrompt [DecidableEq ι] (k : SyncTask) : List (Move ι) → Progress ι → Prop
  | [], _ => True
  | m :: rest, s => m.IsPrompt s ∧ IsPrompt k rest (m.step k s)

/-- What every move keeps. -/
structure Covering (k : SyncTask) (s : Progress ι) : Prop where
  /-- what is tracked has of each pass both ends or none -/
  spanned : ∀ r, k.range? s.collection = some r → r.IsSpanned
  /-- the latest time covered is the latest one reported -/
  covered : k.coveredTo s.collection = (s.reported.map FetchWindow.finish).max?
  /-- up to the latest time covered all is reported -/
  filled : ∀ e, k.coveredTo s.collection = some e → FetchWindow.Filled s.reported k.origin (e + 1)
  /-- a window starts at the origin or after it, does not end before, and all in front of it is
  reported -/
  planned : ∀ w ∈ s.planned, k.origin ≤ w.start ∧ w.start ≤ w.finish ∧
    FetchWindow.Filled s.reported k.origin w.start
  /-- what a flow can report was planned -/
  latest : ∀ flow w, s.latest flow = some w → w ∈ s.planned
  /-- what was reported was planned -/
  reported : s.reported ⊆ s.planned
  /-- a time up to which a window was asked for is before the origin or has been planned -/
  asked : ∀ now ∈ s.asked, now < k.origin ∨ ∃ w ∈ s.planned, now ≤ w.finish

/-- What every move keeps if windows are planned in time. -/
structure Seamless (s : Progress ι) : Prop where
  /-- a window starts right behind the one before it -/
  contiguous : s.planned.IsChain fun v w => w.start = v.finish + 1
  /-- windows share no time -/
  disjoint : s.planned.Pairwise fun v w => v.finish < w.start
  /-- the first window is of the first pass, and no other one is -/
  base_iff : ∀ i w, s.planned[i]? = some w → (w.pass = .base ↔ i = 0)
  /-- the last of all times is in no window -/
  bounded : ∀ w ∈ s.planned, w.finish < Width.int64.greatest

variable {k : SyncTask} {s : Progress ι} {c : Collection} {now : Int} {w : FetchWindow}

/-! ## No gaps -/

namespace Covering

theorem finish_le (h : Covering k s) {w : FetchWindow} (hw : w ∈ s.reported) :
    ∃ e, k.coveredTo s.collection = some e ∧ w.finish ≤ e := by
  have hmem : w.finish ∈ s.reported.map FetchWindow.finish := List.mem_map_of_mem hw
  cases hcovered : k.coveredTo s.collection with
  | none =>
    rw [h.covered, List.max?_eq_none_iff] at hcovered
    rw [hcovered] at hmem
    cases hmem
  | some e => exact ⟨e, rfl, (List.max?_eq_some_iff.mp (h.covered ▸ hcovered)).2 _ hmem⟩

theorem exists_finish (h : Covering k s) {e : Int} (he : k.coveredTo s.collection = some e) :
    ∃ w ∈ s.reported, w.finish = e :=
  List.mem_map.mp (List.max?_eq_some_iff.mp (h.covered ▸ he)).1

theorem coveredTo_eq_none (h : Covering k s) :
    k.coveredTo s.collection = none ↔ s.reported = [] := by
  rw [h.covered, List.max?_eq_none_iff, List.map_eq_nil_iff]

/-- Nothing is missing in front of the window that comes next. -/
theorem filled_first (h : Covering k s) :
    FetchWindow.Filled s.reported k.origin (k.first s.collection) := by
  rw [SyncTask.first]
  cases hcovered : k.coveredTo s.collection with
  | none => exact FetchWindow.filled_self _ _
  | some e => exact (h.filled e hcovered).mono (List.Subset.refl _) (FetchWindow.after_le e)

theorem origin_le_first (h : Covering k s) : k.origin ≤ k.first s.collection := by
  rw [SyncTask.first]
  cases hcovered : k.coveredTo s.collection with
  | none => exact Int.le_refl _
  | some e =>
    obtain ⟨w, hw, rfl⟩ := h.exists_finish hcovered
    obtain ⟨horigin, hle, -⟩ := h.planned w (h.reported hw)
    rw [Option.elim_some, FetchWindow.after]
    split <;> omega

theorem start (hnew : k.range? c = none) : Covering k (start ι c) where
  spanned r hr := by
    rw [Progress.start, hnew] at hr
    cases hr
  covered := by
    rw [SyncTask.coveredTo, Progress.start, hnew]
    rfl
  filled e he := by
    rw [SyncTask.coveredTo, Progress.start, hnew] at he
    cases he
  planned w hw := nomatch hw
  latest flow w hw := nomatch hw
  reported := List.Subset.refl _
  asked now hnow := nomatch hnow

/-- Where nothing is planned, the time asked for is before the origin or is covered. -/
theorem asks (h : Covering k s) (hnext : k.next? s.collection now = none) :
    Covering k { s with asked := s.asked ++ [now] } where
  __ := h
  asked t ht := by
    rcases List.mem_append.mp ht with ht | ht
    · exact h.asked t ht
    · obtain rfl := List.mem_singleton.mp ht
      rw [SyncTask.next?_eq_none, SyncTask.first] at hnext
      cases hcovered : k.coveredTo s.collection with
      | none =>
        rw [hcovered] at hnext
        exact .inl hnext
      | some e =>
        rw [hcovered, Option.elim_some] at hnext
        obtain ⟨w, hw, rfl⟩ := h.exists_finish hcovered
        have hafter := FetchWindow.after_le w.finish
        exact .inr ⟨w, h.reported hw, by omega⟩

/-- A window is planned where what is reported ends. -/
theorem plans (h : Covering k s) (hnext : k.next? s.collection now = some w)
    {latest : ι → Option FetchWindow}
    (hlatest : ∀ flow v, latest flow = some v → v = w ∨ s.latest flow = some v) :
    Covering k { s with
      latest := latest, asked := s.asked ++ [now], planned := s.planned ++ [w] } where
  spanned := h.spanned
  covered := h.covered
  filled := h.filled
  planned v hv := by
    rcases List.mem_append.mp hv with hv | hv
    · exact h.planned v hv
    · obtain rfl := List.mem_singleton.mp hv
      obtain ⟨hstart, -, hle, -⟩ := SyncTask.next?_eq_some hnext
      rw [hstart]
      exact ⟨h.origin_le_first, hstart ▸ hle, h.filled_first⟩
  latest flow v hv := by
    rcases hlatest flow v hv with rfl | hv
    · exact List.mem_concat_self
    · exact List.mem_append_left _ (h.latest flow v hv)
  reported := List.Subset.trans h.reported (List.subset_append_left _ _)
  asked t ht := by
    rcases List.mem_append.mp ht with ht | ht
    · refine (h.asked t ht).imp_right fun ⟨v, hv, hle⟩ => ⟨v, List.mem_append_left _ hv, hle⟩
    · obtain rfl := List.mem_singleton.mp ht
      obtain ⟨-, hfinish, -, -⟩ := SyncTask.next?_eq_some hnext
      exact .inr ⟨w, List.mem_concat_self, by omega⟩

/-- A planned window is reported, late or again. -/
theorem reports (h : Covering k s) (hw : w ∈ s.planned) :
    Covering k { s with
      collection := (s.collection.report k.symbol k.timeframe w.range).1
      reported := s.reported ++ [w] } where
  spanned r hr := by
    obtain ⟨-, hle, -⟩ := h.planned w hw
    rw [SyncTask.range?_report] at hr
    obtain rfl := Option.some.inj hr
    cases hrange : k.range? s.collection with
    | none => exact SyncRange.isSpanned_range hle
    | some r => exact (h.spanned r hrange).merge (SyncRange.isSpanned_range hle)
  covered := by
    rw [SyncTask.coveredTo_report, h.covered, List.map_append, List.map_singleton,
      SyncRange.max?_concat]
  filled e he := by
    obtain ⟨-, -, hfilled⟩ := h.planned w hw
    have hnew := hfilled.concat
    have hsub := List.subset_append_left s.reported [w]
    rw [SyncTask.coveredTo_report] at he
    cases hcovered : k.coveredTo s.collection with
    | none =>
      rw [hcovered] at he
      obtain rfl := Option.some.inj he
      exact hnew
    | some e' =>
      rw [hcovered] at he
      obtain rfl := Option.some.inj he
      -- the latest time is one of the two, and up to each of them there is no gap
      rcases Int.le_total e' w.finish with hle | hle
      · rw [Int.max_eq_right hle]
        exact hnew
      · rw [Int.max_eq_left hle]
        exact (h.filled e' hcovered).mono hsub (Int.le_refl _)
  planned v hv := by
    obtain ⟨horigin, hle, hfilled⟩ := h.planned v hv
    exact ⟨horigin, hle, hfilled.mono (List.subset_append_left _ _) (Int.le_refl _)⟩
  latest := h.latest
  reported v hv := by
    rcases List.mem_append.mp hv with hv | hv
    · exact h.reported hv
    · obtain rfl := List.mem_singleton.mp hv
      exact hw
  asked := h.asked

/-- What does not change the range of the task changes nothing. -/
theorem of_range?_eq (h : Covering k s) (hrange : k.range? c = k.range? s.collection) :
    Covering k { s with collection := c } where
  __ := h
  spanned r hr := h.spanned r (hrange ▸ hr)
  covered := by rw [← h.covered, SyncTask.coveredTo, hrange, SyncTask.coveredTo]
  filled e he := h.filled e (by rwa [SyncTask.coveredTo, ← hrange])

variable [DecidableEq ι]

theorem step (h : Covering k s) (m : Move ι) : Covering k (m.step k s) := by
  cases m with
  | plan flow now =>
    rw [Move.step]
    split
    case h_1 hnext => exact h.asks hnext
    case h_2 w hnext =>
      refine h.plans hnext fun other v hv => ?_
      split at hv
      · exact .inl (Option.some.inj hv).symm
      · exact .inr hv
  | report flow =>
    rw [Move.step]
    split
    case h_1 => exact h
    case h_2 w hlatest => exact h.reports (h.latest flow w hlatest)
  | elsewhere symbol timeframe range =>
    rw [Move.step]
    split
    case isTrue => exact h
    case isFalse hne => exact h.of_range?_eq (TrackedRange.trackedRange?_mergeInto_of_ne hne)

theorem run (h : Covering k s) (moves : List (Move ι)) : Covering k (run k moves s) := by
  induction moves generalizing s with
  | nil => exact h
  | cons m rest ih => exact ih (h.step m)

end Covering

/-! ## No overlaps -/

namespace Seamless

/-- A window that is planned in time starts right behind the one planned before it. -/
theorem plans (h : Seamless s) (hcovering : Covering k s)
    (hnext : k.next? s.collection now = some w) (hreported : s.planned ⊆ s.reported)
    (hnow : now < Width.int64.greatest) {latest : ι → Option FetchWindow} {asked : List Int} :
    Seamless { s with latest := latest, asked := asked, planned := s.planned ++ [w] } := by
  obtain ⟨hstart, hfinish, -, hpass⟩ := SyncTask.next?_eq_some hnext
  -- all windows so far end before the new one, and one of them right before it
  have hbehind (v : FetchWindow) (hv : v ∈ s.planned) :
      v.finish < w.start ∧ ∃ u ∈ s.planned, w.start = u.finish + 1 := by
    obtain ⟨e, hcovered, hle⟩ := hcovering.finish_le (hreported hv)
    obtain ⟨u, hu, rfl⟩ := hcovering.exists_finish hcovered
    have hu := hcovering.reported hu
    have hw : w.start = u.finish + 1 := by
      rw [hstart, SyncTask.first, hcovered, Option.elim_some,
        FetchWindow.after_of_lt (h.bounded u hu)]
    exact ⟨by omega, u, hu, hw⟩
  have hlast (v : FetchWindow) (hv : s.planned.getLast? = some v) : w.start = v.finish + 1 := by
    obtain ⟨front, heq⟩ := List.getLast?_eq_some_iff.mp hv
    obtain ⟨hlt, u, hu, hw⟩ := hbehind v (List.mem_of_getLast? hv)
    rw [heq] at hu
    rcases List.mem_append.mp hu with hu | hu
    · -- no window but the last can be the one right before the new one
      have hbefore := (List.pairwise_append.mp (heq ▸ h.disjoint)).2.2 u hu v
        (List.mem_singleton_self v)
      obtain ⟨-, hle, -⟩ := hcovering.planned v (List.mem_of_getLast? hv)
      omega
    · rw [← List.mem_singleton.mp hu]
      exact hw
  refine ⟨?_, ?_, ?_, ?_⟩
  · refine h.contiguous.append (.singleton w) fun v hv v' hv' => ?_
    obtain rfl := Option.some.inj hv'
    exact hlast v hv
  · refine List.pairwise_append.mpr ⟨h.disjoint, List.pairwise_singleton _ _, fun v hv v' hv' => ?_⟩
    rw [List.mem_singleton.mp hv']
    exact (hbehind v hv).1
  · intro i v hv
    rcases Nat.lt_trichotomy i s.planned.length with hi | rfl | hi
    · rw [List.getElem?_append_left hi] at hv
      exact h.base_iff i v hv
    · rw [List.getElem?_concat_length] at hv
      obtain rfl := Option.some.inj hv
      rw [hpass, hcovering.coveredTo_eq_none, List.length_eq_zero_iff]
      exact ⟨fun hnil => List.subset_nil.mp (hnil ▸ hreported),
        fun hnil => List.subset_nil.mp (hnil ▸ hcovering.reported)⟩
    · rw [List.getElem?_eq_none (by rw [List.length_append, List.length_singleton]; omega)] at hv
      cases hv
  · intro v hv
    rcases List.mem_append.mp hv with hv | hv
    · exact h.bounded v hv
    · rw [List.mem_singleton.mp hv]
      omega

/-- What leaves the planned windows alone leaves no overlap. -/
theorem of_planned_eq {s' : Progress ι} (h : Seamless s) (heq : s'.planned = s.planned) :
    Seamless s' :=
  ⟨heq ▸ h.contiguous, heq ▸ h.disjoint, heq ▸ h.base_iff, heq ▸ h.bounded⟩

theorem start : Seamless (start ι c) where
  contiguous := .nil
  disjoint := .nil
  base_iff i w hw := by cases hw
  bounded w hw := nomatch hw

/-- Once all is reported, nothing is left to fetch up to a time that has been asked for. -/
theorem next?_eq_none (h : Seamless s) (hcovering : Covering k s)
    (hreported : s.planned ⊆ s.reported) (hnow : now ∈ s.asked) :
    k.next? s.collection now = none := by
  rw [SyncTask.next?_eq_none]
  rcases hcovering.asked now hnow with hlt | ⟨w, hw, hle⟩
  · exact Int.lt_of_lt_of_le hlt hcovering.origin_le_first
  · obtain ⟨e, hcovered, hfinish⟩ := hcovering.finish_le (hreported hw)
    obtain ⟨u, hu, rfl⟩ := hcovering.exists_finish hcovered
    have hafter := FetchWindow.after_of_lt (h.bounded u (hcovering.reported hu))
    rw [SyncTask.first, hcovered, Option.elim_some]
    omega

variable [DecidableEq ι]

theorem step (h : Seamless s) (hcovering : Covering k s) {m : Move ι} (hm : m.IsPrompt s) :
    Seamless (m.step k s) := by
  cases m with
  | plan flow now =>
    rw [Move.step]
    split
    case h_1 => exact h.of_planned_eq rfl
    case h_2 w hnext => exact h.plans hcovering hnext hm.1 hm.2
  | report flow =>
    rw [Move.step]
    split
    · exact h
    · exact h.of_planned_eq rfl
  | elsewhere symbol timeframe range =>
    rw [Move.step]
    split
    · exact h
    · exact h.of_planned_eq rfl

theorem run (h : Seamless s) (hcovering : Covering k s) {moves : List (Move ι)}
    (hmoves : IsPrompt k moves s) : Seamless (run k moves s) := by
  induction moves generalizing s with
  | nil => exact h
  | cons m rest ih => exact ih (h.step hcovering hmoves.1) (hcovering.step m) hmoves.2

end Seamless

/-! ## All runs -/

variable [DecidableEq ι]

/-- **What is tracked was fetched.** Flows that share a task may plan and report in any order, at
any times, and leave windows out: what is tracked is consistent, and every time from the origin to
the latest one covered lies in a window that was reported. If besides each window is reported before
the next one is planned, each starts right behind the one before, only the first is of the first
pass, and nothing is left to fetch up to a time that was asked for, once all is reported. -/
theorem run_covers {moves : List (Move ι)} (hnew : k.range? c = none)
    (hrun : run k moves (start ι c) = s) :
    (∀ range, k.range? s.collection = some range → range.isConsistent = true ∧
      ∀ finish, range.coveredTo = some finish →
        ∀ t, k.origin ≤ t → t ≤ finish → ∃ w ∈ s.reported, t ∈ w) ∧
    (IsPrompt k moves (start ι c) →
      s.planned.Pairwise (fun v w => ∀ t, ¬(t ∈ v ∧ t ∈ w)) ∧
      s.planned.IsChain (fun v w => w.start = v.finish + 1) ∧
      (∀ i w, s.planned[i]? = some w → (w.pass = .base ↔ i = 0)) ∧
      (s.planned ⊆ s.reported → ∀ now ∈ s.asked, k.next? s.collection now = none)) := by
  subst hrun
  have hcovering : Covering k (run k moves (start ι c)) := (Covering.start hnew).run moves
  refine ⟨fun range hrange => ⟨(hcovering.spanned range hrange).isConsistent, ?_⟩, ?_⟩
  · intro finish hfinish t horigin hle
    have hcovered : k.coveredTo (run k moves (start ι c)).collection = some finish := by
      rw [SyncTask.coveredTo, hrange]
      exact hfinish
    exact hcovering.filled finish hcovered t horigin (by omega)
  · intro hprompt
    have hseamless : Seamless (run k moves (start ι c)) :=
      Seamless.start.run (Covering.start hnew) hprompt
    refine ⟨?_, hseamless.contiguous, hseamless.base_iff, ?_⟩
    · refine hseamless.disjoint.imp fun hlt t ht => ?_
      rw [FetchWindow.mem_def, FetchWindow.mem_def] at ht
      omega
    · intro hreported now hnow
      exact hseamless.next?_eq_none hcovering hreported hnow

/-- The hourly candles of one symbol, from the millisecond 5 on. -/
def hourly : SyncTask := ⟨"tBTCUSD", some "1h", some 5⟩

/-- Nothing of any candles has been fetched. -/
def candles : Collection := .new "candles" "getCandles" ⟨[], [], [], [], []⟩ 100

/-- Two flows plan at once and report in the other order; then one of them plans and is lost. -/
def crossed : List (Move Bool) :=
  [.plan true 10, .plan false 20, .report false, .report true, .report false, .plan true 30]

/-- Two flows plan in turn. Each reports before the other one plans, and one asks in vain. -/
def inTurn : List (Move Bool) :=
  [.plan true 10, .report true, .plan false 10, .elsewhere "tETHUSD" (some "1h") (.base 0 99),
    .plan false 25, .report false]

theorem run_covers_twoFlows :
    hourly.range? candles = none ∧
      (∀ t, 5 ≤ t → t ≤ 20 → ∃ w ∈ [⟨5, 20, .base⟩, ⟨5, 10, .base⟩, (⟨5, 20, .base⟩ : FetchWindow)],
        t ∈ w) ∧
      IsPrompt hourly inTurn (start Bool candles) ∧
      (run hourly inTurn (start Bool candles)).planned = [⟨5, 10, .base⟩, ⟨11, 25, .current⟩] ∧
      hourly.next? (run hourly inTurn (start Bool candles)).collection 25 = none := by
  have hnew : hourly.range? candles = none := by decide
  have hcrossed : hourly.range? (run hourly crossed (start Bool candles)).collection
      = some (.base 5 20) := by decide
  have hreported : (run hourly crossed (start Bool candles)).reported
      = [⟨5, 20, .base⟩, ⟨5, 10, .base⟩, ⟨5, 20, .base⟩] := by decide
  have hprompt : IsPrompt hourly inTurn (start Bool candles) := by
    simp only [IsPrompt, inTurn, Move.IsPrompt]
    decide
  obtain ⟨hcovers, -⟩ := run_covers (ι := Bool) hnew rfl
  obtain ⟨-, hseamless⟩ := run_covers hnew (rfl : run hourly inTurn (start Bool candles) = _)
  obtain ⟨-, -, -, hnext⟩ := hseamless hprompt
  refine ⟨hnew, ?_, hprompt, by decide, hnext (by decide) 25 (by decide)⟩
  exact hreported ▸ (hcovers _ hcrossed).2 20 rfl

end Progress

end Flows

end AccountHistory
