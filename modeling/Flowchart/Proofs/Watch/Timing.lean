import Flowchart.Proofs.Preview
import Flowchart.Watch
import Mathlib.Algebra.Order.Field.Basic
import Mathlib.Algebra.Order.Field.Rat
import Mathlib.Data.List.Sort

/-!
When a watch delivers what it reads. The looks, the delay of the preview and the last wait are in any relation to each
other: a text is delivered just if it stood for the delay, and the last one always is. The clock counts ticks, which
are compared here in place of the moments in milliseconds.
-/
namespace Flowchart.Watch

open Debouncer (Awaits Rests)

variable {watch : Watch} {seen : List String} {edits : Debouncer String} {delivered : List (Nat × String)}
  {look : Nat} {text : String}

/-- What is asked of the preview when a text is read behind another one, up to the next look. -/
def turn (watch : Watch) (last : Option String) (text : String) : List Preview.Step :=
  if last = some text then [.advance watch.wait]
  else if watch.wait = 0 then [.update text]
  else [.update text, .advance watch.wait]

/-- What is asked of the preview while some texts are read, one at each look, behind the last text of before. -/
def steps (watch : Watch) : Option String → List String → List Preview.Step
  | _, [] => [.advance watch.delay]
  | last, text :: texts => watch.turn last text ++ watch.steps (some text) texts

/-- When a text that is read at a look has stood for the delay, in ticks. -/
def dueTick (watch : Watch) (look : Nat) : Nat :=
  look * watch.wait + watch.delay

/-- The moment of a look in milliseconds. No interval is less than none. -/
def looksAt (watch : Watch) (look : Nat) : Rat :=
  look * max watch.interval 0

/-- When a text that is read at a look has stood for the delay, in milliseconds. -/
def dueAt (watch : Watch) (look : Nat) : Rat :=
  watch.looksAt look + watch.settings.debounceMs

section moments

theorem ticks_pos (watch : Watch) : (0 : Rat) < watch.ticks :=
  Nat.cast_pos.2 watch.interval.den_pos

theorem moment_add (watch : Watch) (first second : Nat) :
    watch.moment (first + second) = watch.moment first + watch.moment second := by
  rw [moment, Nat.cast_add, add_div]
  rfl

theorem moment_lt_iff (watch : Watch) {first second : Nat} :
    watch.moment first < watch.moment second ↔ first < second := by
  rw [moment, moment, div_lt_div_iff_of_pos_right watch.ticks_pos, Nat.cast_lt]

theorem moment_le_iff (watch : Watch) {first second : Nat} :
    watch.moment first ≤ watch.moment second ↔ first ≤ second := by
  rw [moment, moment, div_le_div_iff_of_pos_right watch.ticks_pos, Nat.cast_le]

/-- The ticks between two looks are the interval. -/
theorem moment_wait (watch : Watch) : watch.moment watch.wait = max watch.interval 0 := by
  have whole : ((watch.interval.num.toNat : Int) : Rat) = max (watch.interval.num : Rat) 0 := by
    rw [Int.toNat_eq_max, Int.cast_max, Int.cast_zero]
  rw [moment, wait, ← Int.cast_natCast, whole, ← max_div_div_right (le_of_lt watch.ticks_pos), zero_div, ticks,
    watch.interval.num_div_den]

theorem moment_look (watch : Watch) (look : Nat) : watch.moment (look * watch.wait) = watch.looksAt look := by
  rw [looksAt, ← moment_wait, moment, moment, Nat.cast_mul, mul_div_assoc]

theorem moment_delay (watch : Watch) : watch.moment watch.delay = watch.settings.debounceMs := by
  rw [moment, delay, Nat.cast_mul, mul_div_assoc, div_self (ne_of_gt watch.ticks_pos), mul_one]

theorem moment_dueTick (watch : Watch) (look : Nat) : watch.moment (watch.dueTick look) = watch.dueAt look := by
  rw [dueTick, moment_add, moment_look, moment_delay, dueAt]

/-- A look comes before a text is due by the ticks just if it does by the moments. -/
theorem looksAt_lt_dueAt_iff (watch : Watch) (later look : Nat) :
    watch.looksAt later < watch.dueAt look ↔ later * watch.wait < watch.dueTick look := by
  rw [← moment_look, ← moment_dueTick, moment_lt_iff]

theorem wait_eq_zero_iff (watch : Watch) : watch.wait = 0 ↔ watch.interval ≤ 0 := by
  rw [wait, Int.toNat_eq_zero, Rat.num_nonpos]

/-- The looks at which another text may take the place of one: those before it is due, and in any case the next one if
no time passes between the looks. -/
def Contests (watch : Watch) (look later : Nat) : Prop :=
  watch.looksAt later < watch.dueAt look ∨ watch.interval ≤ 0 ∧ later = look + 1

theorem contests_iff (watch : Watch) {look later : Nat} : watch.Contests look later ↔
    later * watch.wait < watch.dueTick look ∨ watch.wait = 0 ∧ later = look + 1 := by
  rw [Contests, looksAt_lt_dueAt_iff, wait_eq_zero_iff]

end moments

/-- A text is read at a look, in place of another one, and no other one is read at some of the looks since. -/
structure Stood (texts : List String) (look : Nat) (text : String) (during : Nat → Prop) : Prop where
  read : texts[look]? = some text
  anew : ∀ before, before + 1 = look → texts[before]? ≠ some text
  kept : ∀ later other, look ≤ later → during later → texts[later]? = some other → other = text

section stood

variable {during brief : Nat → Prop}

theorem Stood.lt_length (stood : Stood seen look text during) : look < seen.length :=
  (List.getElem?_eq_some_iff.1 stood.read).1

theorem Stood.mono (stood : Stood seen look text during) (briefer : ∀ later, brief later → during later) :
    Stood seen look text brief where
  read := stood.read
  anew := stood.anew
  kept later other since now := stood.kept later other since (briefer later now)

/-- The next text is the only one that may end it. -/
theorem Stood.concat (stood : Stood seen look text during) {next : String} (stays : during seen.length → next = text) :
    Stood (seen ++ [next]) look text during where
  read := by rw [List.getElem?_append_left stood.lt_length, stood.read]
  anew before isBefore := by
    have known := stood.lt_length
    rw [List.getElem?_append_left (by omega)]
    exact stood.anew before isBefore
  kept later other since now isOther := by
    rcases Nat.lt_or_ge later seen.length with known | new
    · rw [List.getElem?_append_left known] at isOther
      exact stood.kept later other since now isOther
    · have inRange := (List.getElem?_eq_some_iff.1 isOther).1
      rw [List.length_append, List.length_singleton] at inRange
      obtain rfl : later = seen.length := by omega
      rw [List.getElem?_concat_length] at isOther
      exact (Option.some.inj isOther).symm.trans (stays now)

theorem Stood.of_concat {next : String} (stood : Stood (seen ++ [next]) look text during) (known : look < seen.length) :
    Stood seen look text during where
  read := by rw [← stood.read, List.getElem?_append_left known]
  anew before isBefore := by
    rw [← List.getElem?_append_left (by omega)]
    exact stood.anew before isBefore
  kept later other since now isOther := by
    refine stood.kept later other since now ?_
    rw [List.getElem?_append_left (List.getElem?_eq_some_iff.1 isOther).1, isOther]

/-- A text that was read before is not read anew. -/
theorem Stood.lt_length_of_same {next : String} (stood : Stood (seen ++ [next]) look text during)
    (same : seen.getLast? = some next) : look < seen.length := by
  have inRange := stood.lt_length
  rw [List.length_append, List.length_singleton] at inRange
  refine Nat.lt_of_le_of_ne (Nat.le_of_lt_succ inRange) ?_
  rintro rfl
  have isNext : next = text := by
    have isRead := stood.read
    rwa [List.getElem?_concat_length, Option.some.injEq] at isRead
  have some : 0 < seen.length := List.length_pos_iff.2 (by rintro rfl; cases same)
  refine stood.anew (seen.length - 1) (by omega) ?_
  rw [List.getElem?_append_left (by omega), ← List.getLast?_eq_getElem?, same, isNext]

/-- A new text stands from its look on. -/
theorem stood_new (differs : seen.getLast? ≠ some text) (during : Nat → Prop) :
    Stood (seen ++ [text]) seen.length text during where
  read := List.getElem?_concat_length
  anew before isBefore isText := by
    apply differs
    rw [List.getLast?_eq_getElem?, ← isBefore, Nat.add_sub_cancel]
    rwa [List.getElem?_append_left (by omega)] at isText
  kept later other since _ isOther := by
    have inRange := (List.getElem?_eq_some_iff.1 isOther).1
    rw [List.length_append, List.length_singleton] at inRange
    obtain rfl : later = seen.length := by omega
    rw [List.getElem?_concat_length] at isOther
    exact (Option.some.inj isOther).symm

/-- A text that stands to the end is the last one, and a new one stands from its own look. -/
theorem Stood.eq_length_of_new {next : String} (stood : Stood (seen ++ [next]) look text fun _ => True)
    (differs : seen.getLast? ≠ some next) : look = seen.length := by
  have inRange := stood.lt_length
  rw [List.length_append, List.length_singleton] at inRange
  refine Nat.le_antisymm (Nat.le_of_lt_succ inRange) (Nat.le_of_not_lt fun known => differs ?_)
  have isNext : next = text := stood.kept _ _ (Nat.le_of_lt known) trivial List.getElem?_concat_length
  obtain ⟨before, isLast⟩ : ∃ before, seen[seen.length - 1]? = some before :=
    ⟨_, List.getElem?_eq_getElem (by omega)⟩
  have isText := (stood.of_concat known).kept (seen.length - 1) before (by omega) trivial isLast
  rw [List.getLast?_eq_getElem?, isLast, isText, isNext]

end stood

/-- All texts that stood were delivered, but perhaps one. -/
def Complete (watch : Watch) (seen : List String) (delivered : List (Nat × String)) (but : Option Nat) : Prop :=
  ∀ look text, Stood seen look text (watch.Contests look) → (look, text) ∈ delivered ∨ but = some look

/-- What became of the last text so far. -/
inductive Fate (watch : Watch) (seen : List String) (edits : Debouncer String) (delivered : List (Nat × String)) :
    Prop where
  | none : seen = [] → Rests edits → delivered = [] → Fate watch seen edits delivered
  | waits {number look : Nat} {text : String} : seen.getLast? = some text → Stood seen look text (fun _ => True) →
      Awaits edits number (watch.dueTick look) text → (∀ earlier ∈ delivered, earlier.1 < look) →
      Complete watch seen delivered (some look) → Fate watch seen edits delivered
  | done {look : Nat} {text : String} {before : List (Nat × String)} : seen.getLast? = some text →
      Stood seen look text (fun _ => True) → Rests edits → delivered = before ++ [(look, text)] →
      Complete watch seen delivered Option.none → Fate watch seen edits delivered

/-- What was delivered of the texts so far, by the looks at which they were read first. -/
structure Timely (watch : Watch) (seen : List String) (edits : Debouncer String) (delivered : List (Nat × String)) :
    Prop where
  delay : edits.delay = watch.delay
  calls : edits.calls = delivered.map fun (look, text) => (watch.dueTick look, text)
  past : ∀ delivery ∈ delivered, watch.dueTick delivery.1 ≤ edits.now
  stood : ∀ look text, (look, text) ∈ delivered → Stood seen look text (watch.Contests look)
  ascending : delivered.Pairwise fun first later => first.1 < later.1
  fate : Fate watch seen edits delivered

theorem Fate.orderly (fate : Fate watch seen edits delivered) : Debouncer.Orderly edits := by
  cases fate with
  | none _ rests => exact rests.orderly
  | waits _ _ awaits => exact awaits.orderly
  | done _ _ rests => exact rests.orderly

/-- A look is about to be taken: its text may take the place of the one that waits, and of none that was delivered. -/
structure AtLook (watch : Watch) (seen : List String) (edits : Debouncer String) (delivered : List (Nat × String)) :
    Prop where
  timely : Timely watch seen edits delivered
  now : edits.now = seen.length * watch.wait
  settled : ∀ delivery ∈ delivered, ¬watch.Contests delivery.1 seen.length
  waits : ∀ {number look : Nat} {text : String}, Stood seen look text (fun _ => True) →
    Awaits edits number (watch.dueTick look) text → watch.Contests look seen.length

section reading

variable (ready : AtLook watch seen edits delivered)

include ready

theorem AtLook.stood_concat (next : String) : ∀ look text, (look, text) ∈ delivered →
    Stood (seen ++ [next]) look text (watch.Contests look) := fun look text mem =>
  (ready.timely.stood look text mem).concat fun contests => absurd contests (ready.settled _ mem)

/-- The same text is read again. -/
theorem AtLook.read_same (same : seen.getLast? = some text) : Timely watch (seen ++ [text]) edits delivered := by
  have complete {but : Option Nat} (complete : Complete watch seen delivered but) :
      Complete watch (seen ++ [text]) delivered but :=
    fun look other stood => complete look other (stood.of_concat (stood.lt_length_of_same same))
  refine ⟨ready.timely.delay, ready.timely.calls, ready.timely.past, ready.stood_concat text,
    ready.timely.ascending, ?_⟩
  cases ready.timely.fate with
  | none isNil =>
    rw [isNil] at same
    cases same
  | waits last stays awaits later known =>
    obtain rfl := Option.some.inj (last.symm.trans same)
    exact .waits List.getLast?_concat (stays.concat fun _ => rfl) awaits later (complete known)
  | done last stays rests split known =>
    obtain rfl := Option.some.inj (last.symm.trans same)
    exact .done List.getLast?_concat (stays.concat fun _ => rfl) rests split (complete known)

/-- A text that waits does not stand any more when another one is read. -/
theorem AtLook.complete_new (differs : seen.getLast? ≠ some text) :
    Complete watch (seen ++ [text]) delivered (some seen.length) := by
  intro look other stood
  by_cases known : look < seen.length
  · have earlier := stood.of_concat known
    cases ready.timely.fate with
    | none isNil =>
      rw [isNil] at known
      cases known
    | @waits number waiting old last stays awaits later complete =>
      rcases complete look other earlier with isDelivered | isWaiting
      · exact .inl isDelivered
      · obtain rfl := Option.some.inj isWaiting
        have isOld : old = other := Option.some.inj (stays.read.symm.trans earlier.read)
        have replaced := stood.kept seen.length text (Nat.le_of_lt known) (ready.waits stays awaits)
          List.getElem?_concat_length
        rw [last, isOld, replaced] at differs
        exact absurd rfl differs
    | done last stays rests split complete => exact .inl ((complete look other earlier).resolve_right nofun)
  · have inRange := stood.lt_length
    rw [List.length_append, List.length_singleton] at inRange
    exact .inr (congrArg some (by omega))

/-- A new text is read, which is an edit. -/
theorem AtLook.read_new (differs : seen.getLast? ≠ some text) :
    Timely watch (seen ++ [text]) (edits.schedule (.once text)) delivered := by
  have awaits := Debouncer.awaits_schedule ready.timely.fate.orderly text
  rw [ready.now, ready.timely.delay] at awaits
  refine ⟨?_, ?_, ?_, ready.stood_concat text, ready.timely.ascending, ?_⟩
  · exact (Debouncer.delay_run edits [.schedule (.once text)]).trans ready.timely.delay
  · exact (Debouncer.calls_schedule edits _).trans ready.timely.calls
  · rw [Debouncer.now_schedule]
    exact ready.timely.past
  · exact .waits List.getLast?_concat (stood_new differs _) awaits
      (fun earlier mem => (ready.timely.stood _ _ mem).lt_length) (ready.complete_new differs)

end reading

/-- What was delivered when some time has passed; what waits behind it is not due yet. -/
structure Elapsed (watch : Watch) (seen : List String) (edits : Debouncer String) (time : Nat)
    (delivered later : List (Nat × String)) : Prop where
  timely : Timely watch seen (edits.advance false time) later
  now : (edits.advance false time).now = edits.now + time
  waits : ∀ {number due : Nat} {text : String}, Awaits (edits.advance false time) number due text →
    edits.now + time < due
  new : ∀ delivery ∈ later, delivery ∈ delivered ∨ Stood seen delivery.1 delivery.2 fun _ => True

theorem Timely.delay_advance (timely : Timely watch seen edits delivered) (time : Nat) :
    (edits.advance false time).delay = watch.delay :=
  (Debouncer.delay_run edits [.advance time]).trans timely.delay

theorem Timely.past_advance (timely : Timely watch seen edits delivered) {time : Nat}
    (now : (edits.advance false time).now = edits.now + time) :
    ∀ delivery ∈ delivered, watch.dueTick delivery.1 ≤ (edits.advance false time).now := by
  intro delivery mem
  rw [now]
  exact Nat.le_add_right_of_le (timely.past delivery mem)

/-- Where no edit waits, nothing is delivered. -/
theorem Timely.rest (timely : Timely watch seen edits delivered) (rests : Rests edits) (time : Nat)
    (fate : Rests (edits.advance false time) → Fate watch seen (edits.advance false time) delivered) :
    Elapsed watch seen edits time delivered delivered := by
  obtain ⟨still, now⟩ := rests.advance time
  exact ⟨⟨timely.delay_advance time, (rests.calls_advance time).trans timely.calls, timely.past_advance now,
    timely.stood, timely.ascending, fate still⟩, now, fun awaits => (still.not_awaits awaits).elim, fun _ => .inl⟩

section waiting

variable {number time : Nat} (timely : Timely watch seen edits delivered) (last : seen.getLast? = some text)
  (stays : Stood seen look text fun _ => True) (awaits : Awaits edits number (watch.dueTick look) text)
  (later : ∀ earlier ∈ delivered, earlier.1 < look) (complete : Complete watch seen delivered (some look))

include timely last stays awaits later complete

/-- The text that waits is delivered when it is due. -/
theorem Timely.late (late : watch.dueTick look ≤ edits.now + time) :
    Elapsed watch seen edits time delivered (delivered ++ [(look, text)]) := by
  obtain ⟨rests, now⟩ := awaits.advance_late late
  refine ⟨⟨timely.delay_advance time, ?calls, ?past, ?stood, ?ascending, .done last stays rests rfl ?complete⟩, now,
    fun awaits => (rests.not_awaits awaits).elim, ?new⟩
  case calls =>
    rw [awaits.calls_advance_late late, timely.calls, List.map_append]
    rfl
  case past =>
    refine List.forall_mem_append.2 ⟨timely.past_advance now, List.forall_mem_singleton.2 ?_⟩
    rw [now]
    exact late
  case stood =>
    intro other delivery mem
    rcases List.mem_append.1 mem with before | new
    · exact timely.stood _ _ before
    · cases List.mem_singleton.1 new
      exact stays.mono fun _ _ => trivial
  case ascending =>
    refine List.pairwise_append.2 ⟨timely.ascending, List.pairwise_singleton _ _, ?_⟩
    intro earlier mem new isNew
    rw [List.mem_singleton.1 isNew]
    exact later earlier mem
  case complete =>
    intro other delivery stood
    refine .inl (List.mem_append.2 ((complete other delivery stood).imp_right fun isLook => ?_))
    obtain rfl := Option.some.inj isLook
    rw [Option.some.inj (stays.read.symm.trans stood.read)]
    exact List.mem_singleton_self _
  case new =>
    intro delivery mem
    refine (List.mem_append.1 mem).imp_right fun new => ?_
    cases List.mem_singleton.1 new
    exact stays

/-- The text that waits goes on doing so before it is due. -/
theorem Timely.early (early : edits.now + time < watch.dueTick look) :
    Elapsed watch seen edits time delivered delivered := by
  obtain ⟨still, now⟩ := awaits.advance_early early
  refine ⟨⟨timely.delay_advance time, (awaits.calls_advance_early early).trans timely.calls, timely.past_advance now,
    timely.stood, timely.ascending, .waits last stays still later complete⟩, now, ?_, fun _ => .inl⟩
  intro number due text other
  obtain ⟨run, isRun, waits, isDue, -⟩ := other.waits
  rw [← isDue, still.due_eq isRun waits]
  exact early

end waiting

/-- Time passes: what is due by then is delivered. -/
theorem Timely.pass (timely : Timely watch seen edits delivered) (time : Nat) :
    ∃ later, Elapsed watch seen edits time delivered later := by
  cases timely.fate with
  | none isNil rests isFresh => exact ⟨_, timely.rest rests time fun still => .none isNil still isFresh⟩
  | done last stays rests split complete =>
    exact ⟨_, timely.rest rests time fun still => .done last stays still split complete⟩
  | @waits number look text last stays awaits later complete =>
    rcases Nat.lt_or_ge (edits.now + time) (watch.dueTick look) with early | late
    · exact ⟨_, timely.early last stays awaits later complete early⟩
    · exact ⟨_, timely.late last stays awaits later complete late⟩

/-- The texts are delivered that stood for the delay, the last one among them. -/
structure Delivers (watch : Watch) (texts : List String) (delivered : List (Nat × String)) : Prop where
  stood : ∀ look text, (look, text) ∈ delivered ↔ Stood texts look text (watch.Contests look)
  ascending : delivered.Pairwise fun first later => first.1 < later.1
  /-- The last text stands since a look of its own, which is the last one of which anything is delivered. -/
  last : ∀ text, texts.getLast? = some text →
    ∃ look, Stood texts look text (fun _ => True) ∧ delivered.getLast? = some (look, text)

theorem Delivers.unique {texts : List String} {some other : List (Nat × String)} (delivers : Delivers watch texts some)
    (same : Delivers watch texts other) : some = other := by
  have : Std.Irrefl fun first later : Nat × String => first.1 < later.1 := ⟨fun call => Nat.lt_irrefl call.1⟩
  have : Std.Antisymm fun first later : Nat × String => first.1 < later.1 :=
    ⟨fun _ _ first later => absurd later (Nat.lt_asymm first)⟩
  exact delivers.ascending.eq_of_mem_iff same.ascending fun (look, text) =>
    (delivers.stood look text).trans (same.stood look text).symm

/-- When the delay has passed behind the last look, nothing waits any more. -/
theorem AtLook.finish (ready : AtLook watch seen edits delivered) : ∃ done,
    (edits.advance false watch.delay).calls = done.map (fun (look, text) => (watch.dueTick look, text)) ∧
      Delivers watch seen done := by
  obtain ⟨done, later, -, waits, -⟩ := ready.timely.pass watch.delay
  refine ⟨done, later.calls, ?_⟩
  cases later.fate with
  | none isNil _ isFresh =>
    refine ⟨fun look text => iff_of_false ?_ fun stood => ?_, later.ascending, ?_⟩
    · rw [isFresh]
      exact List.not_mem_nil
    · rw [isNil] at stood
      cases stood.read
    · rw [isNil]
      nofun
  | @waits number look other last stays awaits =>
    have notDue := waits awaits
    have inTime : look * watch.wait ≤ seen.length * watch.wait :=
      Nat.mul_le_mul_right _ (Nat.le_of_lt stays.lt_length)
    rw [dueTick, ready.now] at notDue
    omega
  | @done look other before last stays rests split complete =>
    refine ⟨fun look text => ⟨later.stood look text, fun stood => (complete look text stood).resolve_right nofun⟩,
      later.ascending, fun text isLast => ?_⟩
    obtain rfl := Option.some.inj (last.symm.trans isLast)
    exact ⟨look, stays, by rw [split, List.getLast?_concat]⟩

/-- The preview while a text is read, up to the next look. -/
theorem run_turn (watch : Watch) (edits : Debouncer String) (last : Option String) (text : String) :
    edits.run false ((watch.turn last text).map Preview.Step.edit) =
      if last = some text then edits.advance false watch.wait
      else if watch.wait = 0 then edits.schedule (.once text)
      else (edits.schedule (.once text)).advance false watch.wait := by
  rw [turn]
  split
  · rfl
  · split <;> rfl

theorem run_steps_cons (watch : Watch) (edits : Debouncer String) (last : Option String) (text : String)
    (texts : List String) : edits.run false ((watch.steps last (text :: texts)).map Preview.Step.edit) =
      (edits.run false ((watch.turn last text).map Preview.Step.edit)).run false
        ((watch.steps (some text) texts).map Preview.Step.edit) := by
  rw [steps, List.map_append, Debouncer.run, List.foldl_append]
  rfl

/-- Time has passed up to the next look. -/
theorem Elapsed.atLook {later : List (Nat × String)} (elapsed : Elapsed watch seen edits watch.wait delivered later)
    (now : edits.now + watch.wait = seen.length * watch.wait)
    (settled : watch.wait = 0 → ∀ delivery ∈ later, delivery.1 + 1 ≠ seen.length) :
    AtLook watch seen (edits.advance false watch.wait) later where
  timely := elapsed.timely
  now := elapsed.now.trans now
  settled delivery mem contests := by
    rcases watch.contests_iff.1 contests with early | ⟨none, next⟩
    · have past := elapsed.timely.past delivery mem
      rw [elapsed.now, now] at past
      omega
    · exact settled none delivery mem next.symm
  waits _ awaits := by
    have notDue := elapsed.waits awaits
    rw [now] at notDue
    exact watch.contests_iff.2 (.inl notDue)

/-- A text is read, and what is due by the next look is delivered. Without time between the looks, a new text waits. -/
theorem AtLook.turn (ready : AtLook watch seen edits delivered) (text : String) : ∃ later,
    AtLook watch (seen ++ [text]) (edits.run false ((watch.turn seen.getLast? text).map Preview.Step.edit)) later := by
  have length : (seen ++ [text]).length = seen.length + 1 := by
    rw [List.length_append, List.length_singleton]
  have next : edits.now + watch.wait = (seen ++ [text]).length * watch.wait := by
    rw [length, Nat.succ_mul, ready.now]
  have early (look : Nat) (known : look < seen.length) : look + 1 ≠ (seen ++ [text]).length := by
    omega
  have earlier : ∀ delivery ∈ delivered, delivery.1 + 1 ≠ (seen ++ [text]).length :=
    fun delivery mem => early _ (ready.timely.stood _ _ mem).lt_length
  rw [run_turn]
  split
  · rename_i same
    obtain ⟨later, elapsed⟩ := (ready.read_same same).pass watch.wait
    refine ⟨later, elapsed.atLook next fun _ delivery mem => ?_⟩
    rcases elapsed.new delivery mem with isOld | stood
    · exact earlier delivery isOld
    · exact early _ (stood.lt_length_of_same same)
  · rename_i differs
    have read := ready.read_new differs
    have unmoved : (edits.schedule (.once text)).now = edits.now := Debouncer.now_schedule _ _
    split
    · rename_i none
      refine ⟨delivered, read, ?_, fun delivery mem contests => ?_, fun stood _ => ?_⟩
      · rw [unmoved, ← next, none, Nat.add_zero]
      · rcases watch.contests_iff.1 contests with early | ⟨-, isNext⟩
        · have past := ready.timely.past delivery mem
          rw [ready.now, none, Nat.mul_zero] at past
          rw [none, Nat.mul_zero] at early
          omega
        · exact earlier delivery mem isNext.symm
      · rw [length, stood.eq_length_of_new differs]
        exact watch.contests_iff.2 (.inr ⟨none, rfl⟩)
    · rename_i some
      obtain ⟨later, elapsed⟩ := read.pass watch.wait
      exact ⟨later, elapsed.atLook (unmoved ▸ next) fun none => absurd none some⟩

/-- What the preview delivers of some texts that are read behind others. -/
theorem AtLook.run (ready : AtLook watch seen edits delivered) (texts : List String) : ∃ done,
    (edits.run false ((watch.steps seen.getLast? texts).map Preview.Step.edit)).calls =
      done.map (fun (look, text) => (watch.dueTick look, text)) ∧ Delivers watch (seen ++ texts) done := by
  induction texts generalizing seen edits delivered with
  | nil =>
    rw [List.append_nil]
    exact ready.finish
  | cons text texts ih =>
    obtain ⟨later, next⟩ := ready.turn text
    have rest := ih next
    rwa [List.append_assoc, List.singleton_append, List.getLast?_concat, ← run_steps_cons] at rest

end Flowchart.Watch
