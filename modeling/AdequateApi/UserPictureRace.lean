import AdequateApi.TransitionRuns
import AdequateApi.UserPictureSpec

/-! Concurrent picture updates of one user. An update has three steps between its `co_await`
points: it clears the directory, stores its file, writes the row. -/
namespace AdequateApi.UsersService
open StdString FileTree FileSystemService UsersRepository HttpMessages DbConnection TransitionRuns

/-- An update of user `id` that carries a picture, and the answers it meets. -/
structure Upload (id : ℤ) where
  data : UserUpdateSerializer
  picture : IncomingFile
  a : UpdateAnswers
  owner : data.id = id
  named : data.picture.isSome = true
  filled : picture.bytes ≠ []

/-- How far an update is; the entity is what the coroutine holds. -/
inductive Phase
  | started
  | cleared (user : UserEntity)
  | stored (user : UserEntity)
  | finished (result : Except Exn Unit)
  deriving DecidableEq

variable {ι : Type} [DecidableEq ι] {id : ℤ}

structure Shared (ι : Type) where
  state : State
  phase : ι → Phase

def Shared.start (s : State) : Shared ι := ⟨s, fun _ => .started⟩

def Shared.move (s : Shared ι) (i : ι) (state : State) (phase : Phase) : Shared ι :=
  ⟨state, Function.update s.phase i phase⟩

section race
variable (srv : Services) (calls : ι → Upload id)

/-- Update `i` runs up to its next `co_await`. -/
def step (s : Shared ι) (i : ι) : Option (Shared ι) :=
  let c := calls i
  let users := s.state.users
  match s.phase i with
  | .started =>
      match hashPassword c.data.toEntity c.a.hash with
      | .error e => some (s.move i s.state (.finished (.error e)))
      | .ok user =>
          match clearDirectory srv s.state.disk (pictureDir user.id) c.a.stat_fails c.a.removal with
          | (disk, .error e) => some (s.move i ⟨disk, users⟩ (.finished (.error (.std e.what))))
          | (disk, .ok ()) => some (s.move i ⟨disk, users⟩ (.cleared user))
  | .cleared user =>
      match storePicture srv s.state.disk user.id c.picture c.a.store with
      | (disk, .error e) => some (s.move i ⟨disk, users⟩ (.finished (.error (.std e.what))))
      | (disk, .ok info) =>
          some (s.move i ⟨disk, users⟩ (.stored { user with picture := some info.storedFileName }))
  | .stored user =>
      let w := UsersRepository.update users user c.a.query
      some (s.move i ⟨s.state.disk, w.1⟩ (.finished (w.2.mapError translate)))
  | .finished _ => none

/-- The steps of one update without another in between are `update`. -/
theorem update_alone (s : State) (i : ι) :
    ∃ es t, (∀ j ∈ es, j = i) ∧ run (step srv calls) (.start s) es = some t ∧
      t.state = (update srv s (calls i).data (calls i).picture (calls i).a).1 ∧
      t.phase i = .finished (update srv s (calls i).data (calls i).picture (calls i).a).2 := by
  unfold update replacePicture
  cases hu : hashPassword (calls i).data.toEntity (calls i).a.hash with
  | error e =>
    refine ⟨[i], (Shared.start s).move i s (.finished (.error e)), by simp, ?_, rfl, ?_⟩
    · simp [run, step, Shared.start, hu]
    · simp [Shared.move]
  | ok user =>
    have htaken : user.picture.isSome ∧ (calls i).picture.bytes ≠ [] := by
      rw [(hashPassword_ok hu).2]
      exact ⟨(calls i).named, (calls i).filled⟩
    dsimp only
    rw [if_pos htaken]
    cases hc : clearDirectory srv s.disk (pictureDir user.id) (calls i).a.stat_fails
        (calls i).a.removal with
    | mk cleared res =>
      cases res with
      | error e =>
        refine ⟨[i], (Shared.start s).move i ⟨cleared, s.users⟩ (.finished (.error (.std e.what))),
          by simp, ?_, rfl, ?_⟩
        · simp [run, step, Shared.start, hu, hc]
        · simp [Shared.move]
      | ok u =>
        dsimp only
        cases hs : storePicture srv cleared user.id (calls i).picture (calls i).a.store with
        | mk disk res =>
          cases res with
          | error e =>
            refine ⟨[i, i], ((Shared.start s).move i ⟨cleared, s.users⟩ (.cleared user)).move i
              ⟨disk, s.users⟩ (.finished (.error (.std e.what))), by simp, ?_, rfl, ?_⟩
            · simp [run, step, Shared.start, Shared.move, hu, hc, hs]
            · simp [Shared.move]
          | ok info =>
            let done : UserEntity := { user with picture := some info.storedFileName }
            let w := UsersRepository.update s.users done (calls i).a.query
            refine ⟨[i, i, i], (((Shared.start s).move i ⟨cleared, s.users⟩ (.cleared user)).move i
              ⟨disk, s.users⟩ (.stored done)).move i ⟨disk, w.1⟩
              (.finished (w.2.mapError translate)), by simp, ?_, rfl, ?_⟩
            · simp [run, step, Shared.start, Shared.move, hu, hc, hs, w, done]
            · simp [Shared.move, w, done]

/-! ### Schedules -/

def uploadName (c : Upload id) : Str := pictureName srv c.picture c.a.store

/-- Some update has stored a file of this name, and since then no other one has begun; only
one that could not see the directory may have. -/
def Kept (name : Str) (es : List ι) : Prop :=
  ∃ pre j post, es = pre ++ j :: post ∧ pre.count j = 1 ∧ uploadName srv (calls j) = name ∧
    ∀ m k r, post = m ++ k :: r → k ∉ pre ++ j :: m → (calls k).a.stat_fails = true

theorem kept_nil (name : Str) : ¬ Kept srv calls name [] := by
  rintro ⟨pre, j, post, h, _⟩
  simp at h

theorem kept_snoc (name : Str) (es : List ι) (i : ι) :
    Kept srv calls name (es ++ [i]) ↔ (es.count i = 1 ∧ uploadName srv (calls i) = name) ∨
      (Kept srv calls name es ∧ (i ∈ es ∨ (calls i).a.stat_fails = true)) := by
  constructor
  · rintro ⟨pre, j, post, hes, hcount, hname, hpost⟩
    rcases List.eq_nil_or_concat post with rfl | ⟨post, k, rfl⟩
    · obtain ⟨rfl, hi⟩ := List.append_inj' hes rfl
      obtain rfl : i = j := by simpa using hi
      exact .inl ⟨hcount, hname⟩
    · rw [List.concat_eq_append] at hes hpost
      have hes' : es ++ [i] = (pre ++ j :: post) ++ [k] := by simpa using hes
      obtain ⟨rfl, hi⟩ := List.append_inj' hes' rfl
      obtain rfl : i = k := by simpa using hi
      right
      constructor
      · exact ⟨pre, j, post, rfl, hcount, hname, fun m k r h =>
          hpost m k (r ++ [i]) (by simp [h])⟩
      · by_cases hmem : i ∈ pre ++ j :: post
        · exact .inl hmem
        · exact .inr (hpost post i [] rfl hmem)
  · rintro (⟨hcount, hname⟩ | ⟨⟨pre, j, post, rfl, hcount, hname, hpost⟩, hi⟩)
    · exact ⟨es, i, [], rfl, hcount, hname, by simp⟩
    · refine ⟨pre, j, post ++ [i], by simp, hcount, hname, fun m k r h hk => ?_⟩
      rcases List.eq_nil_or_concat r with rfl | ⟨r, x, rfl⟩
      · obtain ⟨rfl, hik⟩ := List.append_inj' h rfl
        obtain rfl : i = k := by simpa using hik
        exact hi.resolve_left hk
      · have h' : post ++ [i] = (m ++ k :: r) ++ [x] := by simpa using h
        obtain ⟨rfl, _⟩ := List.append_inj' h' rfl
        exact hpost m k r rfl hk

/-! ### One step -/

/-- A step of update `i` that does not end it with an error. -/
inductive Advanced (s t : Shared ι) (i : ι) : Prop
  | clears {user : UserEntity} {disk : Disk} (phase : s.phase i = .started)
      (owner : user.id = id) (next : t = s.move i ⟨disk, s.state.users⟩ (.cleared user))
      (cleared : Cleared s.state.disk (picturePath srv id)
        (clearing srv s.state.disk id (calls i).a.stat_fails (calls i).a.removal) (disk, .ok ()))
  | stores {user : UserEntity} {disk : Disk} {info : StoredFileInfo} {ends : StoreEnd}
      (phase : s.phase i = .cleared user)
      (next : t = s.move i ⟨disk, s.state.users⟩
        (.stored { user with picture := some info.storedFileName }))
      (stored : Stored s.state.disk (picturePath srv user.id) (tmpName (calls i).a.store)
        (uploadName srv (calls i)) (calls i).picture.bytes ends (disk, .ok info))
  | writes {user : UserEntity} (phase : s.phase i = .stored user)
      (next : t = s.move i
        ⟨s.state.disk, (UsersRepository.update s.state.users user (calls i).a.query).1⟩
        (.finished (.ok ())))
      (ok : (UsersRepository.update s.state.users user (calls i).a.query).2 = .ok ())

theorem step_advanced {s t : Shared ι} {i : ι} (h : step srv calls s i = some t)
    (hok : ∀ e, t.phase i ≠ .finished (.error e)) : Advanced srv calls s t i := by
  unfold step at h
  cases hp : s.phase i with
  | started =>
    simp only [hp] at h
    cases hu : hashPassword (calls i).data.toEntity (calls i).a.hash with
    | error e =>
      simp only [hu, Option.some.injEq] at h
      exact absurd (by simp [← h, Shared.move]) (hok e)
    | ok user =>
      have howner : user.id = id := (hashPassword_ok hu).1.trans (calls i).owner
      have hclear := clearDirectory_cleared srv s.state.disk user.id (calls i).a.stat_fails
        (calls i).a.removal
      simp only [hu] at h
      cases hc : clearDirectory srv s.state.disk (pictureDir user.id) (calls i).a.stat_fails
          (calls i).a.removal with
      | mk disk res =>
        rw [hc] at h hclear
        cases res with
        | error e =>
          simp only [Option.some.injEq] at h
          exact absurd (by simp [← h, Shared.move]) (hok (.std e.what))
        | ok u =>
          simp only [Option.some.injEq] at h
          rw [howner] at hclear
          exact .clears hp howner h.symm hclear
  | cleared user =>
    simp only [hp] at h
    have hstore := storePicture_stored srv s.state.disk user.id (calls i).picture (calls i).a.store
    cases hs : storePicture srv s.state.disk user.id (calls i).picture (calls i).a.store with
    | mk disk res =>
      rw [hs] at h hstore
      cases res with
      | error e =>
        simp only [Option.some.injEq] at h
        exact absurd (by simp [← h, Shared.move]) (hok (.std e.what))
      | ok info =>
        simp only [Option.some.injEq] at h
        exact .stores hp h.symm hstore
  | stored user =>
    simp only [hp, Option.some.injEq] at h
    cases hw : (UsersRepository.update s.state.users user (calls i).a.query).2 with
    | error e => exact absurd (by simp [← h, hw, Shared.move, Except.mapError]) (hok (translate e))
    | ok u =>
      rw [hw] at h
      exact .writes hp h.symm hw
  | finished r => simp [hp] at h

/-! ### The invariant -/

/-- Where an update is after so many of its steps. -/
def AtPhase (c : Upload id) : ℕ → Phase → Prop
  | 0, .started => True
  | 1, .cleared user => user.id = id
  | 2, .stored user => user.id = id ∧ user.picture = some (uploadName srv c)
  | 3, .finished (.ok ()) => True
  | _, _ => False

theorem AtPhase.started {c : Upload id} {n : ℕ} (h : AtPhase srv c n .started) : n = 0 := by
  rcases n with _ | _ | _ | _ | n
  · rfl
  all_goals exact h.elim

theorem AtPhase.cleared {c : Upload id} {n : ℕ} {user : UserEntity}
    (h : AtPhase srv c n (.cleared user)) : n = 1 ∧ user.id = id := by
  rcases n with _ | _ | _ | _ | n
  · exact h.elim
  · exact ⟨rfl, h⟩
  all_goals exact h.elim

theorem AtPhase.stored {c : Upload id} {n : ℕ} {user : UserEntity}
    (h : AtPhase srv c n (.stored user)) :
    n = 2 ∧ user.id = id ∧ user.picture = some (uploadName srv c) := by
  rcases n with _ | _ | _ | _ | n
  · exact h.elim
  · exact h.elim
  · exact ⟨rfl, h⟩
  all_goals exact h.elim

theorem AtPhase.move {es : List ι} {s : Shared ι} {i : ι}
    (h : ∀ j, AtPhase srv (calls j) (es.count j) (s.phase j)) (state : State) {phase : Phase}
    (hi : AtPhase srv (calls i) (es.count i + 1) phase) (j : ι) :
    AtPhase srv (calls j) ((es ++ [i]).count j) ((s.move i state phase).phase j) := by
  unfold Shared.move
  by_cases hj : j = i
  · subst hj
    simpa using hi
  · have hcount : (es ++ [i]).count j = es.count j := by
      simp [List.count_append, Ne.symm hj]
    rw [hcount]
    simpa [hj] using h j

def storedFile (disk : Disk) (id : ℤ) (name : Str) : Option Str :=
  disk.files (picturePath srv id ++ [name])

theorem storedFile_done {disk d : Disk} {tmp name : Name} {bytes : Str} {ends : StoreEnd}
    {info : StoredFileInfo} (h : Stored disk (picturePath srv id) tmp name bytes ends (d, .ok info))
    {other : Str} (hne : other ≠ tmp) :
    storedFile srv d id other =
      if other = name then some bytes else storedFile srv disk id other := by
  cases h with
  | done files dirs stored =>
    unfold storedFile
    rw [files]
    by_cases hn : other = name
    · subst hn
      simp [StoreEnd.writes, applied]
    · rw [if_neg hn]
      apply applied_of_not_mem
      simp [StoreEnd.writes, Ne.symm hne, Ne.symm hn]

/-- After a schedule without errors: a file that some update stored is there as long as it is
kept. -/
structure Sound (es : List ι) (s : Shared ι) : Prop where
  phases : ∀ i, AtPhase srv (calls i) (es.count i) (s.phase i)
  row : ∃ r, s.state.users id = some r
  kept : ∀ i, Kept srv calls (uploadName srv (calls i)) es →
    storedFile srv s.state.disk id (uploadName srv (calls i)) ≠ none ∧
      s.state.disk.dirs (picturePath srv id) = true
  gone : ∀ i, ¬ Kept srv calls (uploadName srv (calls i)) es →
    (∃ j, 2 ≤ es.count j ∧ uploadName srv (calls j) = uploadName srv (calls i)) →
      storedFile srv s.state.disk id (uploadName srv (calls i)) = none

theorem count_other {es : List ι} {i j : ι} (h : j ≠ i) : (es ++ [i]).count j = es.count j := by
  simp [List.count_append, Ne.symm h]

theorem sound_clears {es : List ι} {s : Shared ι} {i : ι} {user : UserEntity} {disk : Disk}
    (h : Sound srv calls es s) (phase : s.phase i = .started) (owner : user.id = id)
    (cleared : Cleared s.state.disk (picturePath srv id)
      (clearing srv s.state.disk id (calls i).a.stat_fails (calls i).a.removal) (disk, .ok ())) :
    Sound srv calls (es ++ [i]) (s.move i ⟨disk, s.state.users⟩ (.cleared user)) := by
  have hcount : es.count i = 0 := by
    have hp := h.phases i
    rw [phase] at hp
    exact hp.started
  have hnew : i ∉ es := List.count_eq_zero.mp hcount
  have hkept : ∀ name, Kept srv calls name (es ++ [i]) ↔
      Kept srv calls name es ∧ (calls i).a.stat_fails = true := by
    intro name
    rw [kept_snoc]
    simp [hcount, hnew]
  refine ⟨AtPhase.move srv calls h.phases _ (by rw [hcount]; exact owner), h.row, ?_, ?_⟩
  · intro j hj
    obtain ⟨hk, hstat⟩ := (hkept _).mp hj
    generalize hc : clearing srv s.state.disk id (calls i).a.stat_fails (calls i).a.removal = c
      at cleared
    cases cleared with
    | absent => exact h.kept j hk
    | emptied =>
      rw [clearing_emptied srv hc] at hstat
      cases hstat
  · intro j hj ⟨k, hk, hname⟩
    have hki : k ≠ i := by
      rintro rfl
      simp [hcount] at hk
    rw [count_other hki] at hk
    generalize hc : clearing srv s.state.disk id (calls i).a.stat_fails (calls i).a.removal = c
      at cleared
    cases cleared with
    | absent =>
      refine h.gone j (fun hkept' => ?_) ⟨k, hk, hname⟩
      rcases clearing_absent srv hc with hstat | hdirs
      · exact hj ((hkept _).mpr ⟨hkept', hstat⟩)
      · rw [(h.kept j hkept').2] at hdirs
        cases hdirs
    | emptied => simp [storedFile, Shared.move, Disk.remove_all, Disk.below]

theorem sound_stores {es : List ι} {s : Shared ι} {i : ι} {user : UserEntity} {disk : Disk}
    {info : StoredFileInfo} {ends : StoreEnd} (h : Sound srv calls es s)
    (phase : s.phase i = .cleared user)
    (stored : Stored s.state.disk (picturePath srv user.id) (tmpName (calls i).a.store)
      (uploadName srv (calls i)) (calls i).picture.bytes ends (disk, .ok info)) :
    Sound srv calls (es ++ [i]) (s.move i ⟨disk, s.state.users⟩
      (.stored { user with picture := some info.storedFileName })) := by
  have hp := h.phases i
  rw [phase] at hp
  obtain ⟨hcount, howner⟩ := hp.cleared
  rw [howner] at stored
  have hold : i ∈ es := List.count_pos_iff.mp (by omega)
  have hkept : ∀ name, Kept srv calls name (es ++ [i]) ↔
      uploadName srv (calls i) = name ∨ Kept srv calls name es := by
    intro name
    rw [kept_snoc]
    simp [hcount, hold]
  have hfile : ∀ j, storedFile srv disk id (uploadName srv (calls j)) =
      if uploadName srv (calls j) = uploadName srv (calls i) then some (calls i).picture.bytes
      else storedFile srv s.state.disk id (uploadName srv (calls j)) :=
    fun j => storedFile_done srv stored (storedName_ne_tmpName _ _ _ _)
  have hname : info.storedFileName = uploadName srv (calls i) := stored.name
  have hdirs : ∀ q, disk.dirs q = (s.state.disk.dirs q || Disk.below q (picturePath srv id)) := by
    cases stored with
    | done _ dirs _ => intro q; rw [dirs]; rfl
  refine ⟨AtPhase.move srv calls h.phases _ ?_, h.row, ?_, ?_⟩
  · rw [hcount]
    exact ⟨howner, by rw [hname]⟩
  · intro j hj
    refine ⟨?_, by simp [Shared.move, hdirs, Disk.below]⟩
    unfold Shared.move
    rw [hfile]
    split
    · exact Option.some_ne_none _
    · rename_i hne
      exact (h.kept j (((hkept _).mp hj).resolve_left (Ne.symm hne))).1
  · intro j hj ⟨k, hk, hkname⟩
    have hnot := fun hc => hj ((hkept _).mpr hc)
    have hne : uploadName srv (calls j) ≠ uploadName srv (calls i) := fun hc => hnot (.inl hc.symm)
    have hki : k ≠ i := by
      rintro rfl
      exact hne hkname.symm
    rw [count_other hki] at hk
    unfold Shared.move
    rw [hfile, if_neg hne]
    exact h.gone j (fun hc => hnot (.inr hc)) ⟨k, hk, hkname⟩

theorem sound_writes {es : List ι} {s : Shared ι} {i : ι} {user : UserEntity}
    (h : Sound srv calls es s) (phase : s.phase i = .stored user)
    (ok : (UsersRepository.update s.state.users user (calls i).a.query).2 = .ok ()) :
    Sound srv calls (es ++ [i]) (s.move i
      ⟨s.state.disk, (UsersRepository.update s.state.users user (calls i).a.query).1⟩
      (.finished (.ok ()))) := by
  have hp := h.phases i
  rw [phase] at hp
  obtain ⟨hcount, howner, hpicture⟩ := hp.stored
  have hold : i ∈ es := List.count_pos_iff.mp (by omega)
  have hkept : ∀ name, Kept srv calls name (es ++ [i]) ↔ Kept srv calls name es := by
    intro name
    rw [kept_snoc]
    simp [hcount, hold]
  refine ⟨AtPhase.move srv calls h.phases _ ?_, ?_, ?_, ?_⟩
  · rw [hcount]
    trivial
  · obtain ⟨r, hr⟩ := h.row
    rw [← howner] at hr
    obtain ⟨r', hr', _⟩ := update_generated srv hr hpicture ok
    rw [howner] at hr'
    exact ⟨r', hr'⟩
  · intro j hj
    exact h.kept j ((hkept _).mp hj)
  · intro j hj ⟨k, hk, hname⟩
    refine h.gone j (fun hc => hj ((hkept _).mpr hc)) ⟨k, ?_, hname⟩
    by_cases hki : k = i
    · rw [hki]
      omega
    · rw [count_other hki] at hk
      exact hk

/-- An update that ended stays as it ended. -/
theorem step_keeps_finished {s t : Shared ι} {i j : ι} {r : Except Exn Unit}
    (h : step srv calls s i = some t) (hj : s.phase j = .finished r) : t.phase j = .finished r := by
  have hne : j ≠ i := by
    rintro rfl
    simp [step, hj] at h
  have hmove : ∃ state phase, t = s.move i state phase := by
    unfold step at h
    dsimp only at h
    split at h
    · split at h
      · exact ⟨_, _, (Option.some.inj h).symm⟩
      · split at h
        · exact ⟨_, _, (Option.some.inj h).symm⟩
        · exact ⟨_, _, (Option.some.inj h).symm⟩
    · split at h
      · exact ⟨_, _, (Option.some.inj h).symm⟩
      · exact ⟨_, _, (Option.some.inj h).symm⟩
    · exact ⟨_, _, (Option.some.inj h).symm⟩
    · cases h
  obtain ⟨state, phase, rfl⟩ := hmove
  simp [Shared.move, hne, hj]

theorem sound_start {s : State} {r : Row} (hr : s.users id = some r) :
    Sound srv calls [] (.start s) := by
  refine ⟨fun i => trivial, ⟨r, hr⟩, fun i h => absurd h (kept_nil srv calls _), ?_⟩
  rintro i _ ⟨j, hj, _⟩
  simp at hj

theorem sound_step {es : List ι} {s t : Shared ι} {i : ι} (h : Sound srv calls es s)
    (ha : Advanced srv calls s t i) : Sound srv calls (es ++ [i]) t := by
  cases ha with
  | clears phase owner next cleared =>
    subst next
    exact sound_clears srv calls h phase owner cleared
  | stores phase next stored =>
    subst next
    exact sound_stores srv calls h phase stored
  | writes phase next ok =>
    subst next
    exact sound_writes srv calls h phase ok

theorem sound_of_runs {s₀ : State} {r : Row} {es : List ι} {s : Shared ι}
    (h : Runs (step srv calls) (fun _ _ => True) (.start s₀) es s) (hr : s₀.users id = some r)
    (hok : ∀ i e, s.phase i ≠ .finished (.error e)) : Sound srv calls es s := by
  induction h with
  | start => exact sound_start srv calls hr
  | snoc _ _ next ih =>
    have hprior := ih fun j e hj => hok j e (step_keeps_finished srv calls next hj)
    exact sound_step srv calls hprior (step_advanced srv calls next (hok _))

/-- Nobody has begun an update since the file of the last writer was stored. -/
def Undisturbed (es : List ι) : Prop :=
  ∃ last, es.getLast? = some last ∧ Kept srv calls (uploadName srv (calls last)) es

/-- When all updates have succeeded, the row names a file that is there exactly when no update
has cleared the directory between the store and the write of the one that wrote last. -/
theorem picture_present_iff [Nonempty ι] {s₀ : State} {r : Row} {es : List ι} {s : Shared ι}
    (h : Runs (step srv calls) (fun _ _ => True) (.start s₀) es s) (hr : s₀.users id = some r)
    (hdone : ∀ i, s.phase i = .finished (.ok ())) :
    (∃ r' name, s.state.users id = some r' ∧ r'.picture = some name ∧
      storedFile srv s.state.disk id name ≠ none) ↔ Undisturbed srv calls es := by
  have hok : ∀ i e, s.phase i ≠ .finished (.error e) := by
    intro i e he
    rw [hdone i] at he
    cases he
  have hsound := sound_of_runs srv calls h hr hok
  cases h with
  | start =>
    obtain ⟨i⟩ := ‹Nonempty ι›
    cases hdone i
  | @snoc es s' t last prior _ next =>
    have hprior := sound_of_runs srv calls prior hr fun j e hj =>
      hok j e (step_keeps_finished srv calls next hj)
    obtain ⟨r', hrow, hpicture⟩ : ∃ r', s.state.users id = some r' ∧
        r'.picture = some (uploadName srv (calls last)) := by
      cases step_advanced srv calls next (hok last) with
      | clears _ _ next =>
        have hphase := hdone last
        rw [next] at hphase
        simp [Shared.move] at hphase
      | stores _ next =>
        have hphase := hdone last
        rw [next] at hphase
        simp [Shared.move] at hphase
      | writes phase next ok =>
        have hp := hprior.phases last
        rw [phase] at hp
        obtain ⟨_, howner, hname⟩ := hp.stored
        obtain ⟨r₀, hr₀⟩ := hprior.row
        rw [← howner] at hr₀
        obtain ⟨r', hr', hpicture⟩ := update_generated srv hr₀ hname ok
        rw [howner] at hr'
        exact ⟨r', next ▸ hr', hpicture⟩
    have hcount : 2 ≤ (es ++ [last]).count last := by
      have hp := hsound.phases last
      rw [hdone last] at hp
      generalize (es ++ [last]).count last = n at hp
      rcases n with _ | _ | n
      · exact hp.elim
      · exact hp.elim
      · omega
    constructor
    · rintro ⟨r'', name, hr'', hname, hfile⟩
      rw [hrow] at hr''
      cases hr''
      rw [hpicture] at hname
      cases hname
      refine ⟨last, by simp, ?_⟩
      by_contra hkept
      exact hfile (hsound.gone last hkept ⟨last, hcount, rfl⟩)
    · rintro ⟨last', hlast, hkept⟩
      obtain rfl : last = last' := by simpa using hlast
      exact ⟨r', _, hrow, hpicture, (hsound.kept last hkept).1⟩

end race

/-! ### Two updates -/

/-- Upload number `i` of a user's picture; the generated names differ. -/
def upload (i : Fin 2) : Upload 7 where
  data := ⟨7, none, some "p.png".toList, none, none⟩
  picture := ⟨"new".toList, "p.png".toList, "image/png".toList⟩
  a := ⟨.ok [], false, none, plainStore i i, .done 5⟩
  owner := rfl
  named := rfl
  filled := by decide

theorem picture_present_iff_sequential :
    ∃ s, Runs (step plainServices upload) (fun _ _ => True)
        (.start (withPicture "old.png".toList)) [0, 0, 0, 1, 1, 1] s ∧
      (∀ i, s.phase i = .finished (.ok ())) ∧
      ((∃ r' name, s.state.users 7 = some r' ∧ r'.picture = some name ∧
        storedFile plainServices s.state.disk 7 name ≠ none) ↔
          Undisturbed plainServices upload [0, 0, 0, 1, 1, 1]) := by
  obtain ⟨s, hs, hdone⟩ := Option.map_eq_some_iff.mp (show
    (run (guarded (step plainServices upload) fun _ _ => True)
      (.start (withPicture "old.png".toList)) [0, 0, 0, 1, 1, 1]).map
        (fun s => decide (∀ i, s.phase i = .finished (.ok ()))) = some true by decide +kernel)
  have hruns := runs_of_guarded hs
  have hall := of_decide_eq_true hdone
  have hrow : (withPicture "old.png".toList).users 7 =
      some ⟨"u".toList, some "old.png".toList, none, none, 0, 0⟩ := by decide +kernel
  exact ⟨s, hruns, hall, picture_present_iff plainServices upload hruns hrow hall⟩

/-- Update 1 runs as a whole between the store and the write of update 0. -/
theorem picture_dangles :
    ∃ s, Runs (step plainServices upload) (fun _ _ => True)
        (.start (withPicture "old.png".toList)) [0, 0, 1, 1, 1, 0] s ∧
      (∀ i, s.phase i = .finished (.ok ())) ∧
      ∃ name, s.state.users 7 = some ⟨"u".toList, some name, none, none, 0, 5⟩ ∧
        storedFile plainServices s.state.disk 7 name = none := by
  obtain ⟨s, hs, hfacts⟩ := Option.map_eq_some_iff.mp (show
    (run (guarded (step plainServices upload) fun _ _ => True)
      (.start (withPicture "old.png".toList)) [0, 0, 1, 1, 1, 0]).map
        (fun s => decide ((∀ i, s.phase i = .finished (.ok ())) ∧
          s.state.users 7 = some ⟨"u".toList, some (uploadName plainServices (upload 0)), none,
            none, 0, 5⟩ ∧
          storedFile plainServices s.state.disk 7 (uploadName plainServices (upload 0)) = none)) =
      some true by decide +kernel)
  obtain ⟨hall, hrow, hfile⟩ := of_decide_eq_true hfacts
  exact ⟨s, runs_of_guarded hs, hall, _, hrow, hfile⟩

end AdequateApi.UsersService
