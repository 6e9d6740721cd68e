import MiniCloud.Proof.AdmissionSteps

/-!
# Admission, under interference

`AdmissionSteps` says that a Version that waits for its report can be completed. That it still
waits when the report arrives is a matter of ownership: between a commit and the end of its
drive, a Version belongs to one drive, and no other drive writes it. `AdmissionInv` is that
ownership, with what every drive knows about the Version it owns; `turn` is the frame rule that
all moves go through.
-/

namespace MiniCloud.LocalController

open Lib Problem Digest Model ControlPlane Op

variable {σ : Type} {a : Admissions σ} {budget t : ℕ} {k validationID : GoString} {v : Version}
  {d d' : Drive} {r r' : ReleaseStore} {command last last' : CommandMeta} {p : PreparedVersion}
  {c : Controller σ} {report : Validator.Report}

/-! ## What a drive knows -/

/-- What admission has left behind in a stored Version; `last` is the latest command. -/
structure Settled (last : CommandMeta) (v : Version) : Prop where
  timeout : wholeMilliseconds v
  profile : v.runtimeFeatureProfile = WasmProfile.featureProfile
  uploaded : v.state = .uploaded → NewVersion v
  validating : v.state = .validating → v.resourceRevision = 2
  latest : v.updatedAt.instant ≤ last.time.instant
  begun : last.time.isZero = false

/-- A listed attempt: its Version has left Uploaded, and keeps the fence while it is Validating. -/
def Listed (r : ReleaseStore) (attempt : VersionAdmissionAttempt) : Prop :=
  ∃ v, r.versions.get? attempt.versionID = some v ∧ v.state ≠ .uploaded ∧
    (v.state = .validating →
      r.validationIDByVersion.get? attempt.versionID = some attempt.validationID)

namespace Drive

/-- The Version that is the drive's own from its commit, or its claim, to its end. -/
def owned : Drive → Option GoString
  | created p | claimed p => some p.version.versionID
  | loading attempt _ _ => some attempt.versionID
  | started v _ _ _ | reported v _ _ _ _ _ => some v.versionID
  | preparing _ _ _ | creating _ | resuming _ _ => none

/-- The id it has entered into `validating`. -/
def holds : Drive → Option GoString
  | created _ => none
  | d => d.owned

def rest : Drive → List VersionAdmissionAttempt
  | resuming rest _ | loading _ rest _ | started _ _ rest _ | reported _ _ _ _ rest _ => rest
  | _ => []

def Knows (r : ReleaseStore) (last : CommandMeta) : Drive → Prop
  | preparing _ validationID version => HalfDrawn last validationID version
  | creating p => Drawn last p
  | created p | claimed p =>
    Drawn last p ∧ NewVersion p.version ∧ r.versions.get? p.version.versionID = some p.version
  | resuming _ _ => True
  | loading attempt _ _ => Listed r attempt
  | started v validationID _ _ => Waiting r v validationID
  | reported v report deployment command _ _ =>
    (∃ validationID, Waiting r v validationID) ∧ Completing v report deployment command ∧
      v.updatedAt.instant ≤ command.time.instant ∧ command.time.instant ≤ last.time.instant ∧
      last.time.isZero = false

theorem owned_of_holds (h : d.holds = some k) : d.owned = some k := by
  cases d <;> first | exact h | cases h

end Drive

/-! ## Frames -/

/-- The releases say the same of `k`. -/
structure Keeps (r r' : ReleaseStore) (k : GoString) : Prop where
  version : r'.versions.get? k = r.versions.get? k
  fence : r'.validationIDByVersion.get? k = r.validationIDByVersion.get? k

theorem Settled.later (h : Settled last v) (hlater : Later last last') : Settled last' v := by
  obtain ⟨hbegun, hle⟩ := hlater h.begun
  exact { h with latest := h.latest.trans hle, begun := hbegun }

theorem HalfDrawn.later (h : HalfDrawn last validationID v) (hlater : Later last last') :
    HalfDrawn last' validationID v := by
  obtain ⟨hbegun, hle⟩ := hlater h.begun
  exact { h with latest := h.latest.trans hle, begun := hbegun }

theorem Drawn.later (h : Drawn last p) (hlater : Later last last') : Drawn last' p := by
  obtain ⟨hbegun, hle⟩ := hlater h.begun
  exact { h with latest := h.latest.trans hle, begun := hbegun }

theorem Waiting.keeps (h : Waiting r v validationID) (hk : Keeps r r' v.versionID) :
    Waiting r' v validationID :=
  { h with found := hk.version.trans h.found, fence := hk.fence.trans h.fence }

/-- A drive is only disturbed by a write to the Version it owns. -/
theorem Drive.Knows.frame (h : d.Knows r last) (hlater : Later last last')
    (hkeeps : ∀ k, d.owned = some k → Keeps r r' k)
    (hlisted : ∀ attempt, Listed r attempt → Listed r' attempt) : d.Knows r' last' := by
  cases d with
  | preparing _ validationID version => exact HalfDrawn.later h hlater
  | creating p => exact Drawn.later h hlater
  | created p | claimed p =>
    obtain ⟨hd, hnew, hfound⟩ := h
    exact ⟨hd.later hlater, hnew, (hkeeps _ rfl).version.trans hfound⟩
  | resuming => trivial
  | loading attempt => exact hlisted attempt h
  | started v validationID => exact Waiting.keeps h (hkeeps _ rfl)
  | reported v report deployment command =>
    obtain ⟨⟨validationID, hw⟩, hc, horder, hlatest, hbegun⟩ := h
    obtain ⟨hbegun', hle⟩ := hlater hbegun
    exact ⟨⟨validationID, hw.keeps (hkeeps _ rfl)⟩, hc, horder, hlatest.trans hle, hbegun'⟩

/-! ## Ownership -/

namespace Admissions

def Owns (a : Admissions σ) (t : ℕ) (k : GoString) : Prop :=
  ∃ d, a.drives t = some d ∧ d.owned = some k

def Holds (a : Admissions σ) (t : ℕ) (k : GoString) : Prop :=
  ∃ d, a.drives t = some d ∧ d.holds = some k

/-- The drive is between the commit of `v` and the start of its validation. -/
def Uploads (a : Admissions σ) (t : ℕ) (v : Version) : Prop :=
  ∃ p, p.version = v ∧ (a.drives t = some (.created p) ∨ a.drives t = some (.claimed p))

abbrev releases (a : Admissions σ) : ReleaseStore := a.controller.stores.releases

theorem Holds.owns (h : a.Holds t k) : a.Owns t k := by
  obtain ⟨d, hd, hk⟩ := h
  exact ⟨d, hd, Drive.owned_of_holds hk⟩

end Admissions

structure AdmissionInv (a : Admissions σ) : Prop where
  reachable : a.controller.stores.Reachable
  versions : ∀ k v, a.releases.versions.get? k = some v → Settled a.controller.lastCommand v
  drives : ∀ t d, a.drives t = some d → d.Knows a.releases a.controller.lastCommand
  rests : ∀ t d, a.drives t = some d → ∀ attempt ∈ d.rest, Listed a.releases attempt
  /-- A Version has one owner. -/
  distinct : ∀ t u k, a.Owns t k → a.Owns u k → t = u
  held : ∀ k, (a.validating.get? k).isSome ↔ ∃ t, a.Holds t k
  uploaded : ∀ k v, a.releases.versions.get? k = some v → v.state = .uploaded →
    ∃ t, a.Uploads t v

theorem admissionInv_new (sources : σ) : AdmissionInv (newAdmissions sources) where
  reachable := .init
  versions := by intro k v h; cases h
  drives := by intro t d h; cases h
  rests := by intro t d h; cases h
  distinct := by rintro t u k ⟨d, h, -⟩; cases h
  held := by
    intro k
    constructor
    · intro h; cases h
    · rintro ⟨t, d, h, -⟩; cases h
  uploaded := by intro k v h; cases h

theorem drives_put (a : Admissions σ) (t u : ℕ) (d : Option Drive) :
    (a.put t d).drives u = if u = t then d else a.drives u :=
  Function.update_apply ..

theorem drives_put_self (a : Admissions σ) (t : ℕ) (d : Option Drive) :
    (a.put t d).drives t = d := by
  rw [drives_put, if_pos rfl]

/-- What a move of drive `t` has to show: all other drives go on undisturbed. -/
structure Turn (a : Admissions σ) (t : ℕ) (s : Stores) (next : Option Drive)
    (validating : GoMap GoString Unit) : Prop where
  reachable : s.Reachable
  versions : ∀ k v, s.releases.versions.get? k = some v → Settled a.controller.lastCommand v
  keeps : ∀ u k, u ≠ t → a.Owns u k → Keeps a.releases s.releases k
  listed : ∀ attempt, Listed a.releases attempt → Listed s.releases attempt
  knows : ∀ d, next = some d → d.Knows s.releases a.controller.lastCommand ∧
    ∀ attempt ∈ d.rest, Listed s.releases attempt
  owns : ∀ d k, next = some d → d.owned = some k → ∀ u, u ≠ t → ¬ a.Owns u k
  held : ∀ k, (validating.get? k).isSome ↔ (∃ d, next = some d ∧ d.holds = some k) ∨
    ((a.validating.get? k).isSome ∧ ¬ a.Holds t k)
  uploaded : ∀ k v, s.releases.versions.get? k = some v → v.state = .uploaded →
    (∃ p, p.version = v ∧ (next = some (.created p) ∨ next = some (.claimed p))) ∨
      ∃ u, u ≠ t ∧ a.Uploads u v

/-- **The frame rule.** -/
theorem AdmissionInv.turn {s : Stores} {next : Option Drive} {validating : GoMap GoString Unit}
    (h : AdmissionInv a) (ht : Turn a t s next validating) :
    AdmissionInv { (a.withStores s).put t next with validating := validating } := by
  have hself := drives_put_self (a.withStores s) t next
  have hothers : ∀ u, u ≠ t → ((a.withStores s).put t next).drives u = a.drives u := by
    intro u hu
    rw [drives_put, if_neg hu]
    rfl
  have howns : ∀ u k, u ≠ t → (((a.withStores s).put t next).Owns u k ↔ a.Owns u k) := by
    intro u k hu
    rw [Admissions.Owns, Admissions.Owns, hothers u hu]
  refine ⟨ht.reachable, ht.versions, ?_, ?_, ?_, ?_, ?_⟩
  · intro u d hd
    by_cases hu : u = t
    · subst hu
      exact (ht.knows d (hself.symm.trans hd)).1
    · have hd' := (hothers u hu).symm.trans hd
      exact (h.drives u d hd').frame (.refl _) (fun k hk => ht.keeps u k hu ⟨d, hd', hk⟩) ht.listed
  · intro u d hd attempt hmem
    by_cases hu : u = t
    · subst hu
      exact (ht.knows d (hself.symm.trans hd)).2 attempt hmem
    · exact ht.listed attempt (h.rests u d ((hothers u hu).symm.trans hd) attempt hmem)
  · intro u w k hown hown'
    by_cases hu : u = t <;> by_cases hw : w = t
    · rw [hu, hw]
    · subst hu
      obtain ⟨d, hd, hk⟩ := hown
      exact absurd ((howns w k hw).mp hown') (ht.owns d k (hself.symm.trans hd) hk w hw)
    · subst hw
      obtain ⟨d, hd, hk⟩ := hown'
      exact absurd ((howns u k hu).mp hown) (ht.owns d k (hself.symm.trans hd) hk u hu)
    · exact h.distinct u w k ((howns u k hu).mp hown) ((howns w k hw).mp hown')
  · intro k
    refine (ht.held k).trans ?_
    rw [h.held]
    constructor
    · rintro (⟨d, hd, hk⟩ | ⟨⟨u, d, hd, hk⟩, hnot⟩)
      · exact ⟨t, d, hself.trans hd, hk⟩
      · have hne : u ≠ t := fun heq => hnot ⟨d, heq ▸ hd, hk⟩
        exact ⟨u, d, (hothers u hne).trans hd, hk⟩
    · rintro ⟨u, d, hd, hk⟩
      by_cases hut : u = t
      · exact .inl ⟨d, hself.symm.trans (hut ▸ hd), hk⟩
      · have hold : a.Holds u k := ⟨d, (hothers u hut).symm.trans hd, hk⟩
        exact .inr ⟨⟨u, hold⟩, fun hself => hut (h.distinct u t k hold.owns hself.owns)⟩
  · intro k v hv hstate
    rcases ht.uploaded k v hv hstate with ⟨p, hp, hnext⟩ | ⟨u, hu, p, hp, hup⟩
    · exact ⟨t, p, hp, hnext.imp hself.trans hself.trans⟩
    · exact ⟨u, p, hp, hup.imp (hothers u hu).trans (hothers u hu).trans⟩

/-! ## Moves that write no Version -/

theorem Keeps.of_eq (h : r' = r) (k : GoString) : Keeps r r' k := by
  rw [h]
  exact ⟨rfl, rfl⟩

theorem AdmissionInv.withController (h : AdmissionInv a) (hreach : c.stores.Reachable)
    (hsame : c.stores.releases = a.releases)
    (hlater : Later a.controller.lastCommand c.lastCommand) :
    AdmissionInv (a.withController c) where
  reachable := hreach
  versions := by
    intro k v hv
    rw [Admissions.releases, Admissions.withController, hsame] at hv
    exact (h.versions k v hv).later hlater
  drives := by
    intro t d hd
    refine (h.drives t d hd).frame hlater (fun k _ => .of_eq hsame k) fun attempt hl => ?_
    rw [Admissions.releases, Admissions.withController, hsame]
    exact hl
  rests := by
    intro t d hd attempt hmem
    rw [Admissions.releases, Admissions.withController, hsame]
    exact h.rests t d hd attempt hmem
  distinct := h.distinct
  held := h.held
  uploaded := by
    intro k v hv
    rw [Admissions.releases, Admissions.withController, hsame] at hv
    exact h.uploaded k v hv

theorem AdmissionInv.draws (h : AdmissionInv a) (hd : Draws a.controller c) :
    AdmissionInv (a.withController c) := by
  refine h.withController ?_ ?_ hd.later
  · rw [hd.stores]
    exact h.reachable
  · rw [hd.stores]

/-- Only the drive `t` and the claims change. -/
theorem AdmissionInv.rearranged {d' : Option Drive} {validating : GoMap GoString Unit}
    (h : AdmissionInv a)
    (hknows : ∀ d, d' = some d → d.Knows a.releases a.controller.lastCommand ∧
      ∀ attempt ∈ d.rest, Listed a.releases attempt)
    (howns : ∀ d k, d' = some d → d.owned = some k → ∀ u, u ≠ t → ¬ a.Owns u k)
    (hheld : ∀ k, (validating.get? k).isSome ↔ (∃ d, d' = some d ∧ d.holds = some k) ∨
      ((a.validating.get? k).isSome ∧ ¬ a.Holds t k))
    (hup : ∀ v, a.Uploads t v → ∃ p, p.version = v ∧ (d' = some (.created p) ∨ d' = some (.claimed p))) :
    AdmissionInv { a.put t d' with validating := validating } := by
  refine h.turn ⟨h.reachable, h.versions, fun _ k _ _ => .of_eq rfl k, fun _ hl => hl, hknows, howns,
    hheld, fun k v hv hstate => ?_⟩
  obtain ⟨u, hu⟩ := h.uploaded k v hv hstate
  by_cases hut : u = t
  · exact .inl (hup v (hut ▸ hu))
  · exact .inr ⟨u, hut, hu⟩

theorem Admissions.Uploads.owns (h : a.Uploads t v) : a.Owns t v.versionID := by
  obtain ⟨p, rfl, hd | hd⟩ := h
  · exact ⟨_, hd, rfl⟩
  · exact ⟨_, hd, rfl⟩

theorem holds_iff {k' : GoString} (hd : a.drives t = some d) (hold : d.holds = some k) :
    a.Holds t k' ↔ k' = k := by
  constructor
  · rintro ⟨e, he, hek⟩
    cases he.symm.trans hd
    exact Option.some.inj (hek.symm.trans hold)
  · rintro rfl
    exact ⟨d, hd, hold⟩

/-- A drive that owns nothing goes on without owning anything, or ends. -/
theorem AdmissionInv.idle {d' : Option Drive} (h : AdmissionInv a) (hold : ∀ k, ¬ a.Owns t k)
    (hnew : ∀ d, d' = some d → d.owned = none ∧ d.Knows a.releases a.controller.lastCommand ∧
      ∀ attempt ∈ d.rest, Listed a.releases attempt) :
    AdmissionInv (a.put t d') := by
  refine h.rearranged (fun d hd => (hnew d hd).2) ?_ ?_ ?_
  · intro d k hd hk
    rw [(hnew d hd).1] at hk
    cases hk
  · intro k
    have hnot : ¬ a.Holds t k := fun hh => hold k hh.owns
    have hnone : ¬ ∃ d, d' = some d ∧ d.holds = some k := by
      rintro ⟨d, hd, hk⟩
      have := Drive.owned_of_holds hk
      rw [(hnew d hd).1] at this
      cases this
    show (a.validating.get? k).isSome ↔ _
    constructor
    · exact fun hk => .inr ⟨hk, hnot⟩
    · rintro (hd | hk)
      · exact absurd hd hnone
      · exact hk.1
  · intro v hv
    exact absurd hv.owns (hold _)

/-- A drive past the start goes on with the Version it holds. -/
theorem AdmissionInv.handed (h : AdmissionInv a) (hd : a.drives t = some d)
    (hold : d.holds = some k) (hstarted : ∀ v, ¬ a.Uploads t v) (hnew : d'.holds = some k)
    (hknows : d'.Knows a.releases a.controller.lastCommand)
    (hrest : ∀ attempt ∈ d'.rest, Listed a.releases attempt) :
    AdmissionInv (a.put t (some d')) := by
  have hself : a.Owns t k := ⟨d, hd, Drive.owned_of_holds hold⟩
  refine h.rearranged ?_ ?_ ?_ ?_
  · rintro _ ⟨⟩
    exact ⟨hknows, hrest⟩
  · rintro _ k' ⟨⟩ hk' u hu hown
    have hkk : k' = k := by
      rw [Drive.owned_of_holds hnew] at hk'
      exact (Option.some.inj hk').symm
    exact hu (h.distinct u t k (hkk ▸ hown) hself)
  · intro k'
    show (a.validating.get? k').isSome ↔ _
    have hheld := (h.held k').mpr
    constructor
    · intro hk'
      by_cases hkk : a.Holds t k'
      · exact .inl ⟨d', rfl, by rw [hnew, (holds_iff hd hold).mp hkk]⟩
      · exact .inr ⟨hk', hkk⟩
    · rintro (⟨_, ⟨⟩, hk'⟩ | hk')
      · refine hheld ⟨t, d, hd, ?_⟩
        rw [hold, ← hnew, hk']
      · exact hk'.1
  · intro v hv
    exact absurd hv (hstarted v)

variable {rest : List VersionAdmissionAttempt}

/-- A drive lets go of its Version. -/
theorem AdmissionInv.finished (h : AdmissionInv a) (hd : a.drives t = some d)
    (hold : d.holds = some k) (hstarted : ∀ v, ¬ a.Uploads t v)
    (hrest : ∀ attempt ∈ rest, Listed a.releases attempt) :
    AdmissionInv (a.finish t k rest budget) := by
  refine h.rearranged ?_ ?_ ?_ ?_
  · rintro _ ⟨⟩
    exact ⟨trivial, hrest⟩
  · rintro _ k' ⟨⟩ hk'
    cases hk'
  · intro k'
    rw [holds_iff hd hold, GoMap.get?_delete]
    split_ifs with hkk <;> simp [hkk, Drive.holds, Drive.owned]
  · intro v hv
    exact absurd hv (hstarted v)

/-- A drive enters a free Version into `validating`. -/
theorem AdmissionInv.claimed (h : AdmissionInv a) (hold : ∀ k', ¬ a.Holds t k')
    (hnew : d'.holds = some k) (hknows : d'.Knows a.releases a.controller.lastCommand)
    (hrest : ∀ attempt ∈ d'.rest, Listed a.releases attempt) (hfree : ∀ u, u ≠ t → ¬ a.Owns u k)
    (hup : ∀ v, a.Uploads t v → ∃ p, p.version = v ∧ d' = .claimed p) :
    AdmissionInv ((a.claimed k).put t (some d')) := by
  refine h.rearranged (a := a) ?_ ?_ ?_ ?_
  · rintro _ ⟨⟩
    exact ⟨hknows, hrest⟩
  · rintro _ k' ⟨⟩ hk'
    rw [Drive.owned_of_holds hnew] at hk'
    cases hk'
    exact hfree
  · intro k'
    have hself : (∃ e, some d' = some e ∧ e.holds = some k') ↔ k' = k := by
      constructor
      · rintro ⟨_, ⟨⟩, hk'⟩
        exact Option.some.inj (hk'.symm.trans hnew)
      · rintro rfl
        exact ⟨d', rfl, hnew⟩
    show ((a.validating.set k ()).get? k').isSome ↔ _
    rw [hself, GoMap.get?_set]
    split_ifs with hkk
    · simp [hkk]
    · simp [hkk, hold k']
  · intro v hv
    obtain ⟨p, hp, rfl⟩ := hup v hv
    exact ⟨p, hp, .inr rfl⟩

/-! ## Store commands of a drive -/

theorem step_applyCreateVersion (s : Stores) (p : PreparedVersion) :
    (exec (applyCreateVersion p) s).2 =
      (storesMachine.step s (.createVersion (createVersionCommand p))).2 := by
  simp [applyCreateVersion, wrapped, storesMachine, Command.run]

theorem step_applyStartValidation (s : Stores) (v : Version) (p : PreparedVersion) :
    (exec (applyStartValidation v p) s).2 =
      (storesMachine.step s (.startValidation (startValidationCommand v p))).2 := by
  simp [applyStartValidation, wrapped, storesMachine, Command.run]

theorem step_applyCompletion (s : Stores) (v : Version) (report : Validator.Report)
    (deployment : Option Deployment) (command : CommandMeta) :
    (exec (applyCompletion v report deployment command) s).2 =
      (storesMachine.step s (.completeValidation
        (completeValidationCommand v report deployment command))).2 := by
  simp [applyCompletion, wrapped, storesMachine, Command.run]

theorem atomic_applyCreateVersion (s : Stores) (p : PreparedVersion) :
    Atomic (applyCreateVersion p) s fun v s' =>
      ∃ function, CreatesVersion s.catalog s.releases (createVersionCommand p) function ∧
        v = p.version ∧ s' = { s with releases := s.releases.addVersion p.version } := by
  have h := Atomic.of_map
    (Atomic.of_get_bind (atomic_run s (.createVersion (createVersionCommand p))))
  refine .get_bind (.mapError (h.mono ?_))
  rintro v s' (_ | ⟨_, _, _, hc⟩)
  cases hc with
  | versionCreated _ function hc => exact ⟨function, hc, rfl, rfl⟩

/-- A consumed report takes its Version out of Validating; the time of the command stays with it. -/
theorem atomic_applyCompletion {s : Stores} (h : ReleaseInv s.releases) (v : Version)
    (report : Validator.Report) (deployment : Option Deployment) (command : CommandMeta) :
    Atomic (applyCompletion v report deployment command) s fun _ s' =>
      ∃ w w', Progress s.releases s'.releases v.versionID w w' ∧ w.state = .validating ∧
        w'.updatedAt = command.time := by
  have hrun := Atomic.of_map
    (atomic_run s (.completeValidation (completeValidationCommand v report deployment command)))
  refine .map (.mapError (hrun.mono ?_))
  rintro ⟨v', d'⟩ s' (_ | ⟨_, _, _, hc⟩)
  cases hc with
  | validationFailed _ w hc hr hv => exact ⟨w, _, progress_fail h hc hv, hc.validating, rfl⟩
  | validationPassed _ w d hc => exact ⟨w, _, progress_pass h hc, hc.validating, rfl⟩

theorem write_releases (s : Stores) {command : Command} (h : command.writesVersions = false) :
    (exec command.run s).2.releases = s.releases := by
  show (storesMachine.step s command).2.releases = s.releases
  rcases step_commit s command with hsame | ⟨reply, s', he, hc⟩
  · rw [hsame]
  · rw [he]
    cases hc <;> first | rfl | cases h

theorem admission_leaves {x y : VersionState} (h : ControlPlane.Admission x y) : y ≠ .uploaded := by
  cases h <;> decide

theorem admission_enters {x y : VersionState} (h : ControlPlane.Admission x y) (hy : y = .validating) :
    x = .uploaded := by
  cases h with
  | start => rfl
  | pass | reject => cases hy

theorem keeps_progress {k' : GoString} {v' : Version} (h : Progress r r' k v v') (hk : k' ≠ k) :
    Keeps r r' k' := by
  refine ⟨?_, h.otherPending k' hk⟩
  rw [h.versions, GoMap.get?_set_ne _ _ hk]

theorem AdmissionInv.release (h : AdmissionInv a) : ReleaseInv a.releases :=
  releaseInv_reachable h.reachable

/-- What a drive owns is stored. -/
theorem AdmissionInv.stored (h : AdmissionInv a) (hown : a.Owns t k) :
    ∃ v, a.releases.versions.get? k = some v := by
  obtain ⟨d, hd, hk⟩ := hown
  have hknows := h.drives t d hd
  cases d with
  | preparing | creating | resuming => cases hk
  | created p | claimed p =>
    cases hk
    exact ⟨_, hknows.2.2⟩
  | loading attempt =>
    cases hk
    obtain ⟨v, hv, -⟩ := hknows
    exact ⟨v, hv⟩
  | started v =>
    cases hk
    exact ⟨v, hknows.found⟩
  | reported v =>
    cases hk
    obtain ⟨⟨_, hw⟩, -⟩ := hknows
    exact ⟨v, hw.found⟩

theorem AdmissionInv.create (h : AdmissionInv a) (t : ℕ) : AdmissionInv (a.create t).2 := by
  unfold Admissions.create
  split
  case h_2 => exact h
  case h_1 p hd =>
  have hdrawn : Drawn a.controller.lastCommand p := h.drives t _ hd
  have hidle : ∀ k, ¬ a.Owns t k := by
    rintro k ⟨d, hd', hk⟩
    cases hd.symm.trans hd'
    cases hk
  have hstep := atomic_applyCreateVersion a.controller.stores p
  have hreach : (exec (applyCreateVersion p) a.controller.stores).2.Reachable := by
    rw [step_applyCreateVersion]
    exact h.reachable.tail _
  rw [Atomic] at hstep
  split <;> rename_i r s he <;> rw [he] at hstep hreach
  · cases show s = a.controller.stores from hstep
    exact h.idle hidle fun d hd => by cases hd
  · obtain ⟨function, hc, rfl, rfl⟩ := hstep
    have hnew : NewVersion p.version := validateCreateVersion_ok hc.valid
    have hsettled : Settled a.controller.lastCommand p.version :=
      ⟨hdrawn.timeout, hdrawn.profile, fun _ => hnew,
        fun hs => (by rw [hnew.state] at hs; cases hs), hdrawn.order.trans hdrawn.latest,
        hdrawn.begun⟩
    have hother : ∀ k v, a.releases.versions.get? k = some v → k ≠ p.version.versionID := by
      rintro k v hv rfl
      cases hc.newID.symm.trans hv
    refine h.turn ⟨hreach, GoMap.forall_set h.versions hsettled, ?_, ?_, ?_, ?_, ?_, ?_⟩
    · intro u k _ hown
      obtain ⟨v, hv⟩ := h.stored hown
      exact ⟨GoMap.get?_set_ne _ _ (hother k v hv), rfl⟩
    · rintro attempt ⟨v, hv, hstate⟩
      exact ⟨v, (GoMap.get?_set_ne _ _ (hother _ v hv)).trans hv, hstate⟩
    · rintro _ ⟨⟩
      exact ⟨⟨hdrawn, hnew, GoMap.get?_set_self ..⟩, fun _ hmem => by cases hmem⟩
    · rintro _ _ ⟨⟩ ⟨⟩ u _ hown
      obtain ⟨v, hv⟩ := h.stored hown
      exact hother _ v hv rfl
    · intro k
      constructor
      · exact fun hk => .inr ⟨hk, fun hh => hidle k hh.owns⟩
      · rintro (⟨_, ⟨⟩, hk⟩ | hk)
        · cases hk
        · exact hk.1
    · intro k v hv hstate
      by_cases hk : k = p.version.versionID
      · subst hk
        cases (GoMap.get?_set_self ..).symm.trans hv
        exact .inl ⟨p, rfl, .inl rfl⟩
      · obtain ⟨u, hu⟩ := h.uploaded k v ((GoMap.get?_set_ne _ _ hk).symm.trans hv) hstate
        refine .inr ⟨u, ?_, hu⟩
        rintro rfl
        exact hidle _ hu.owns

/--
A drive writes the Version it holds. The Version leaves its state, so what the other drives know
of the attempts they have listed stays true.
-/
theorem AdmissionInv.wrote {s : Stores} {validating : GoMap GoString Unit} {v' : Version}
    (h : AdmissionInv a) (hd : a.drives t = some d) (hold : d.holds = some k)
    (hreach : s.Reachable) (hp : Progress a.releases s.releases k v v')
    (hsettled : Settled a.controller.lastCommand v')
    (hknows : d'.Knows s.releases a.controller.lastCommand)
    (hrest : d'.rest = [] ∨ d'.rest = d.rest) (howns : ∀ k', d'.owned = some k' → k' = k)
    (hheld : ∀ k', (validating.get? k').isSome ↔ d'.holds = some k' ∨
      ((a.validating.get? k').isSome ∧ k' ≠ k)) :
    AdmissionInv { (a.withStores s).put t (some d') with validating := validating } := by
  have hown : a.Owns t k := ⟨d, hd, Drive.owned_of_holds hold⟩
  have hget : ∀ k', s.releases.versions.get? k' =
      if k' = k then some v' else a.releases.versions.get? k' := by
    intro k'
    rw [hp.versions, GoMap.get?_set]
  have hgone : v'.state ≠ .uploaded := admission_leaves hp.admission
  have hlisted : ∀ attempt, Listed a.releases attempt → Listed s.releases attempt := by
    rintro attempt ⟨w, hw, hstate, hfence⟩
    by_cases hk : attempt.versionID = k
    · refine ⟨v', by rw [hget, if_pos hk], hgone, fun hs => ?_⟩
      rw [hk, hp.found] at hw
      cases hw
      exact absurd (admission_enters hp.admission hs) hstate
    · refine ⟨w, by rw [hget, if_neg hk, hw], hstate, fun hs => ?_⟩
      rw [hp.otherPending _ hk]
      exact hfence hs
  refine h.turn ⟨hreach, ?_, ?_, hlisted, ?_, ?_, ?_, ?_⟩
  · intro k' w hw
    rw [hget] at hw
    split_ifs at hw with hk
    · cases hw
      exact hsettled
    · exact h.versions k' w hw
  · intro u k' hu hown'
    refine keeps_progress hp ?_
    rintro rfl
    exact hu (h.distinct u t _ hown' hown)
  · rintro _ ⟨⟩
    refine ⟨hknows, fun attempt hmem => ?_⟩
    rcases hrest with hrest | hrest <;> rw [hrest] at hmem
    · cases hmem
    · exact hlisted attempt (h.rests t d hd attempt hmem)
  · rintro _ k' ⟨⟩ hk u hu hown'
    cases howns k' hk
    exact hu (h.distinct u t _ hown' hown)
  · intro k'
    rw [hheld, holds_iff hd hold]
    refine or_congr ⟨fun hk => ⟨d', rfl, hk⟩, ?_⟩ Iff.rfl
    rintro ⟨_, ⟨⟩, hk⟩
    exact hk
  · intro k' w hw hstate
    rw [hget] at hw
    split_ifs at hw with hk
    · cases hw
      exact absurd hstate hgone
    · obtain ⟨u, hu⟩ := h.uploaded k' w hw hstate
      refine .inr ⟨u, ?_, hu⟩
      rintro rfl
      refine hk ?_
      have hw' := (h.release.versions k' w hw).1
      obtain ⟨e, he, hek⟩ := hu.owns
      cases he.symm.trans hd
      rw [← hw']
      exact Option.some.inj (hek.symm.trans (Drive.owned_of_holds hold))

/-! ## Every move -/

theorem not_uploads (hd : a.drives t = some d) (hc : ∀ p, d ≠ .created p)
    (hcl : ∀ p, d ≠ .claimed p) (v : Version) : ¬ a.Uploads t v := by
  rintro ⟨p, -, hp | hp⟩
  · cases hd.symm.trans hp
    exact hc p rfl
  · cases hd.symm.trans hp
    exact hcl p rfl

/-- A reading of the releases. -/
theorem releases_get_ok {found : Version × Option Deployment} (h : r.get k = .ok found) :
    r.versions.get? k = some found.1 := by
  obtain ⟨⟨⟩, -, h⟩ := bind_ok.mp h
  split at h
  · cases h
  · rename_i v hv
    cases h
    exact hv

theorem listed_pendingValidations (h : ReleaseInv r) {attempt : VersionAdmissionAttempt}
    (hmem : attempt ∈ pendingValidations r) : Listed r attempt := by
  obtain ⟨v, hv, hsome⟩ := List.mem_filterMap.mp hmem
  obtain ⟨id, hid, rfl⟩ := Option.map_eq_some_iff.mp hsome
  obtain ⟨⟨k, w⟩, hkw, rfl⟩ := List.mem_map.mp (mem_sortFunc.mp hv)
  have hw := GoMap.mem_toList.mp hkw
  cases (h.versions k w hw).1
  obtain ⟨w', hw', hstate⟩ := (h.pending _).mp (Option.isSome_iff_exists.mpr ⟨id, hid⟩)
  cases hw.symm.trans hw'
  exact ⟨w, hw, by rw [hstate]; decide, fun _ => hid⟩

theorem not_owns (hd : a.drives t = some d) (hnone : d.owned = none) (k : GoString) :
    ¬ a.Owns t k := by
  rintro ⟨e, he, hk⟩
  cases he.symm.trans hd
  cases hnone.symm.trans hk

section

variable (h : AdmissionInv a)
include h

/-- The reserved start goes through. -/
theorem AdmissionInv.start_eq (hd : a.drives t = some (.claimed p)) :
    a.start t = (none, (a.withStores { a.controller.stores with
        releases := a.releases.startVersion (startedVersion p.version
          (startValidationCommand p.version p)) p.validationID }).put t
      (some (.started (startedVersion p.version (startValidationCommand p.version p))
        p.validationID [] 0))) := by
  obtain ⟨hdrawn, hnew, hfound⟩ := h.drives t _ hd
  unfold Admissions.start
  rw [hd]
  simp only [exec_applyStartValidation hdrawn hnew hfound]

theorem AdmissionInv.start (t : ℕ) : AdmissionInv (a.start t).2 := by
  rcases hd : a.drives t with _ | d
  · simpa [Admissions.start, hd] using h
  cases d with
  | claimed p =>
    obtain ⟨hdrawn, hnew, hfound⟩ := h.drives t _ hd
    have hstarts := startsValidation hdrawn hnew hfound
    have hreach : (exec (applyStartValidation p.version p) a.controller.stores).2.Reachable := by
      rw [step_applyStartValidation]
      exact h.reachable.tail _
    rw [exec_applyStartValidation hdrawn hnew hfound] at hreach
    have hrevision : p.version.resourceRevision + 1 = 2 := by
      rw [hnew.revision]
      decide
    rw [h.start_eq hd]
    refine h.wrote hd rfl hreach (progress_start h.release hstarts) ?_ ?_ (.inl rfl) ?_ ?_
    · exact ⟨hdrawn.timeout, hdrawn.profile, fun hs => (by cases hs), fun _ => hrevision,
        hdrawn.latest, hdrawn.begun⟩
    · exact ⟨GoMap.get?_set_self .., hstarts.accepted, rfl, hrevision, GoMap.get?_set_self ..,
        hdrawn.timeout, hdrawn.profile⟩
    · rintro k ⟨⟩
      rfl
    · intro k
      show (a.validating.get? k).isSome ↔ _
      constructor
      · intro hk
        by_cases hkk : k = p.version.versionID
        · exact .inl (by rw [hkk]; rfl)
        · exact .inr ⟨hk, hkk⟩
      · rintro (hk | hk)
        · exact (h.held k).mpr ⟨t, _, hd, hk⟩
        · exact hk.1
  | _ => simpa [Admissions.start, hd] using h

theorem AdmissionInv.complete (t : ℕ) : AdmissionInv (a.complete t).2 := by
  unfold Admissions.complete
  split
  case h_2 => exact h
  case h_1 v report deployment command rest budget hd =>
  obtain ⟨⟨validationID, hw⟩, hc, horder, hlatest, hbegun⟩ := h.drives t _ hd
  have hstep := atomic_applyCompletion h.release v report deployment command
  have hreach : (exec (applyCompletion v report deployment command)
      a.controller.stores).2.Reachable := by
    rw [step_applyCompletion]
    exact h.reachable.tail _
  rw [Atomic] at hstep
  split <;> rename_i r s he <;> rw [he] at hstep hreach
  · cases show s = a.controller.stores from hstep
    exact h.finished hd rfl (not_uploads hd (fun _ h => by cases h) (fun _ h => by cases h))
      (h.rests t _ hd)
  · obtain ⟨w, w', hp, hstate, htime⟩ := hstep
    have hsettled := h.versions _ w hp.found
    refine h.wrote hd rfl hreach hp ?_ trivial (.inr rfl) (fun k hk => by cases hk) ?_
    · refine ⟨?_, ?_, fun hs => absurd hs (admission_leaves hp.admission), ?_, ?_, hbegun⟩
      · rw [hp.same]
        exact hsettled.timeout
      · rw [hp.same]
        exact hsettled.profile
      · intro hs
        cases hstate.symm.trans (admission_enters hp.admission hs)
      · rw [htime]
        exact hlatest
    · intro k
      show ((a.validating.delete v.versionID).get? k).isSome ↔ _
      rw [GoMap.get?_delete]
      split_ifs with hk <;> simp [hk, Drive.holds, Drive.owned]

/-- A drive whose Version is Uploaded finds it free: whoever has claimed it knows otherwise. -/
theorem AdmissionInv.free (hd : a.drives t = some (.created p)) :
    a.validating.get? p.version.versionID = none := by
  rw [← Option.not_isSome_iff_eq_none, h.held]
  rintro ⟨u, hu⟩
  cases h.distinct u t _ hu.owns ⟨_, hd, rfl⟩
  obtain ⟨d, hd', hk⟩ := hu
  cases hd.symm.trans hd'
  cases hk

theorem AdmissionInv.claim_eq (hd : a.drives t = some (.created p)) :
    a.claim t = (none, (a.claimed p.version.versionID).put t (some (.claimed p))) := by
  unfold Admissions.claim
  rw [hd]
  simp only [h.free hd, Option.isSome_none, Bool.false_eq_true, if_false]

theorem AdmissionInv.claim (t : ℕ) : AdmissionInv (a.claim t).2 := by
  rcases hd : a.drives t with _ | d
  · simpa [Admissions.claim, hd] using h
  cases d with
  | created p =>
    have hknows : (Drive.created p).Knows a.releases a.controller.lastCommand := h.drives t _ hd
    rw [h.claim_eq hd]
    refine h.claimed ?_ rfl hknows (fun _ hmem => by cases hmem) ?_ ?_
    · rintro k ⟨d, hd', hk⟩
      cases hd.symm.trans hd'
      cases hk
    · exact fun u hu hown => hu (h.distinct u t _ hown ⟨_, hd, rfl⟩)
    · rintro v ⟨q, hq, hd' | hd'⟩
      · cases hd.symm.trans hd'
        exact ⟨p, hq, rfl⟩
      · cases hd.symm.trans hd'
  | _ => simpa [Admissions.claim, hd] using h

/-- An attempt that nobody has claimed is nobody's: the Uploaded Versions are not listed. -/
theorem AdmissionInv.unowned {attempt : VersionAdmissionAttempt}
    (hlisted : Listed a.releases attempt) (hfree : ¬ (a.validating.get? attempt.versionID).isSome)
    (u : ℕ) : ¬ a.Owns u attempt.versionID := by
  rintro ⟨d, hd, hk⟩
  rw [h.held] at hfree
  have hknows := h.drives u d hd
  cases d with
  | created p =>
    obtain ⟨v, hv, hstate, -⟩ := hlisted
    rw [← Option.some.inj hk] at hv
    cases hknows.2.2.symm.trans hv
    exact hstate hknows.2.1.state
  | preparing | creating | resuming => cases hk
  | claimed | loading | started | reported => exact hfree ⟨u, _, hd, hk⟩

theorem AdmissionInv.next (t : ℕ) : AdmissionInv (a.next t).2 := by
  unfold Admissions.next
  split
  · rename_i attempt rest budget hd
    have hlisted := h.rests t _ hd
    have hrest :
        ∀ x ∈ rest, Listed a.releases x := fun x hx => hlisted x (List.mem_cons_of_mem _ hx)
    have hhead := hlisted attempt List.mem_cons_self
    split_ifs with hclaimed
    · refine h.idle (not_owns hd rfl) ?_
      rintro _ ⟨⟩
      exact ⟨rfl, trivial, hrest⟩
    · refine h.claimed (fun k hk => not_owns hd rfl k hk.owns) rfl hhead hrest
        (fun u _ => h.unowned hhead hclaimed u) fun v hv => ?_
      exact absurd hv.owns (not_owns hd rfl _)
  · rename_i rest budget _ hd
    exact h.idle (not_owns hd rfl) fun d hd => by cases hd
  · exact h

theorem AdmissionInv.load (t : ℕ) : AdmissionInv (a.load t).2 := by
  unfold Admissions.load
  split
  case h_2 => exact h
  case h_1 attempt rest budget hd =>
  have hlisted : Listed a.releases attempt := h.drives t _ hd
  have hrest := h.rests t _ hd
  have hstarted := not_uploads hd (fun _ h => by cases h) (fun _ h => by cases h)
  have hfinish : AdmissionInv (a.finish t attempt.versionID rest budget) :=
    h.finished hd rfl hstarted hrest
  split
  · exact hfinish
  · rename_i v deployment hget
    split_ifs with hstate
    · have hv : a.releases.versions.get? attempt.versionID = some v := releases_get_ok hget
      obtain ⟨hid, hvalid⟩ := h.release.versions _ v hv
      have hsettled := h.versions _ v hv
      obtain ⟨w, hw, -, hfence⟩ := hlisted
      cases hv.symm.trans hw
      have hwaits : Waiting a.releases v attempt.validationID :=
        ⟨by rw [hid, hv], hvalid, hstate, hsettled.validating hstate, by rw [hid]; exact hfence hstate,
          hsettled.timeout, hsettled.profile⟩
      refine h.handed hd rfl hstarted ?_ hwaits hrest
      show some v.versionID = _
      rw [hid]
    · exact hfinish

end

variable (src : Sources σ)

theorem AdmissionInv.prepare (h : AdmissionInv a) (t : ℕ) (input : CreateVersionInput) :
    AdmissionInv (a.prepare src t input).2 := by
  unfold Admissions.prepare
  split
  case h_1 => exact h
  case h_2 hd =>
  have hmoves := moves_drawVersion src input a.controller
  split <;> rename_i he
  · exact h.draws (hmoves.rel he)
  · refine (h.draws (hmoves.rel he)).idle (fun k ⟨d, hd', _⟩ => by cases hd.symm.trans hd') ?_
    rintro _ ⟨⟩
    exact ⟨rfl, hmoves.2 _ _ he, fun _ hmem => by cases hmem⟩

theorem AdmissionInv.reserve (h : AdmissionInv a) (t : ℕ) : AdmissionInv (a.reserve src t).2 := by
  unfold Admissions.reserve
  split
  case h_2 => exact h
  case h_1 command validationID version hd =>
  have hhalf : HalfDrawn a.controller.lastCommand validationID version := h.drives t _ hd
  have hmoves : Moves Draws (reserveStart src command validationID version) a.controller
      fun p c => Drawn c.lastCommand p := moves_reserveStart src hhalf
  split <;> rename_i he
  · exact (h.draws (hmoves.rel he)).idle (not_owns hd rfl) fun d hd => by cases hd
  · refine (h.draws (hmoves.rel he)).idle (not_owns hd rfl) ?_
    rintro _ ⟨⟩
    exact ⟨rfl, hmoves.2 _ _ he, fun _ hmem => by cases hmem⟩

theorem AdmissionInv.resume (h : AdmissionInv a) (t limit : ℕ) :
    AdmissionInv (a.resume t limit).2 := by
  unfold Admissions.resume
  split
  case h_1 => exact h
  case h_2 hd =>
  split_ifs
  · exact h
  · refine h.idle (fun k ⟨d, hd', _⟩ => by cases hd.symm.trans hd') ?_
    rintro _ ⟨⟩
    exact ⟨rfl, trivial, fun attempt hmem => listed_pendingValidations h.release hmem⟩

theorem AdmissionInv.validate (run : RunValidator σ) (h : AdmissionInv a) (t : ℕ) :
    AdmissionInv (Admissions.validate src run a t).2 := by
  unfold Admissions.validate
  split
  case h_2 => exact h
  case h_1 v validationID rest budget hd =>
  have hwaits : Waiting a.releases v validationID := h.drives t _ hd
  have hrest := h.rests t _ hd
  have hstarted := not_uploads hd (fun _ h => by cases h) (fun _ h => by cases h)
  have hsettled := h.versions _ v hwaits.found
  have hmoves : Moves Draws (do
      let report ← admissionReport src run v validationID
      let completion ← drawCompletion src v report
      pure (report, completion)) a.controller fun drawn c =>
        Completing v drawn.1 drawn.2.1 drawn.2.2 ∧ v.updatedAt.instant ≤ drawn.2.2.time.instant ∧
          c.lastCommand = drawn.2.2 := by
    refine (moves_admissionReport src run v validationID _).bind fun report c hdraws _ => ?_
    refine (moves_drawCompletion src v report c).bind fun drawn c' hdraws' hdrawn => .ret ?_
    obtain ⟨hbegun, hle⟩ := hdraws.later hsettled.begun
    refine ⟨hdrawn.1, ?_, hdrawn.2⟩
    rw [← hdrawn.2]
    exact (hsettled.latest.trans hle).trans (hdraws'.later hbegun).2
  dsimp only
  split <;> rename_i he
  · have hc := h.draws (hmoves.rel he)
    exact hc.finished hd rfl hstarted (hc.rests t _ hd)
  · rename_i report deployment command c
    have hc := h.draws (hmoves.rel he)
    obtain ⟨hcompletes, horder, hlast⟩ := hmoves.2 _ _ he
    replace hlast : c.lastCommand = command := hlast
    have hwaits' := hc.drives t _ hd
    have hrest' := hc.rests t _ hd
    refine hc.handed hd rfl hstarted rfl ?_ hrest'
    refine ⟨⟨validationID, hwaits'⟩, hcompletes, horder, ?_, ?_⟩
    · show command.time.instant ≤ c.lastCommand.time.instant
      rw [hlast]
    · show c.lastCommand.time.isZero = false
      rw [hlast]
      exact hcompletes.usable.nonzero

theorem AdmissionInv.abandon (h : AdmissionInv a) (t : ℕ) : AdmissionInv (a.abandon t).2 := by
  unfold Admissions.abandon
  split
  · rename_i p hd
    exact h.idle (not_owns hd rfl) fun d hd => by cases hd
  · rename_i rest budget hd
    exact h.idle (not_owns hd rfl) fun d hd => by cases hd
  · exact h

theorem AdmissionInv.write (h : AdmissionInv a) (command : Command) :
    AdmissionInv (a.write command).2 := by
  unfold Admissions.write
  split_ifs with hwrites
  · exact h
  · refine h.withController (h.reachable.tail command) ?_ (.refl _)
    exact write_releases _ (Bool.eq_false_iff.mpr hwrites)

/-- **Preserved by every move.** -/
theorem admissionInv_step (run : RunValidator σ) (a : Admissions σ) (move : AdmissionMove σ)
    (h : AdmissionInv a) : AdmissionInv ((admissionMachine src run).step a move).2 := by
  cases move with
  | prepare t input => exact h.prepare src t input
  | reserve t => exact h.reserve src t
  | create t => exact h.create t
  | claim t => exact h.claim t
  | start t => exact h.start t
  | resume t limit => exact h.resume t limit
  | next t => exact h.next t
  | load t => exact h.load t
  | validate t => exact h.validate src run t
  | complete t => exact h.complete t
  | abandon t => exact h.abandon t
  | draw => exact h.draws (moves_nextCommand src a.controller).1
  | disturb sources => exact h.withController h.reachable rfl (.refl _)
  | write command => exact h.write command

theorem admissionInv_run (run : RunValidator σ) (sources : σ) (moves : List (AdmissionMove σ)) :
    AdmissionInv ((admissionMachine src run).run (newAdmissions sources) moves) :=
  Machine.invariant (admissionInv_new sources) (fun a move _ h => admissionInv_step src run a move h)
    (Machine.Reachable.init.run moves)

/-! ## Agreement -/

/-- How an admission may end: `result` is the answer, `r` the releases it leaves. -/
inductive Concluded (r : ReleaseStore) (v : Version) (report : Validator.Report)
    (command : CommandMeta) : AdmissionResult → Prop
  | ready (id : GoString) (v' : Version) (d : Deployment) (hvalid : report.valid = true)
      (hbuilt : initialDeployment v id command = .ok d) (hgeneration : d.generation = 1)
      (hsame : SameVersion v v') (hstate : v'.state = .ready)
      (hversion : r.versions.get? v.versionID = some v')
      (hdeployed : r.deployments.get? v.versionID = some d) :
      Concluded r v report command ⟨v', some d⟩
  | failed (v' : Version) (hrejected : report.valid = false) (hsame : SameVersion v v')
      (hstate : v'.state = .failed)
      (herror : v'.validationError = some ⟨Code.ofText report.code, report.message⟩)
      (hversion : r.versions.get? v.versionID = some v')
      (hundeployed : r.deployments.get? v.versionID = none) :
      Concluded r v report command ⟨v', none⟩

theorem AdmissionInv.concludes (h : AdmissionInv a) {deployment : Option Deployment}
    (hd : a.drives t = some (.reported v report deployment command rest budget))
    (hfence : a.releases.validationIDByVersion.get? v.versionID = some validationID)
    (hr : Acceptable v validationID report) :
    ∃ result, (a.complete t).1 = some ⟨some result, none⟩ ∧
      Concluded (a.complete t).2.releases v report command result := by
  obtain ⟨⟨id, hw⟩, hc, horder, -, -⟩ := h.drives t _ hd
  cases hw.fence.symm.trans hfence
  have hnone : a.releases.deployments.get? v.versionID = none := by
    rw [← Option.not_isSome_iff_eq_none, h.release.deployed]
    rintro ⟨w, hfound, hready⟩
    cases hw.found.symm.trans hfound
    cases hw.state.symm.trans hready
  cases hvalid : report.valid with
  | true =>
    obtain ⟨deploymentID, d, hid, rfl, hbuilt⟩ := hc.passed hvalid
    have hexec := exec_applyCompletion_passed hw hr hvalid hc.usable horder hid hbuilt
    have hinitial := validateInitialDeployment_ok
      (initialDeployment_accepted hw.valid hid hc.usable hbuilt v.resourceRevision)
    unfold Admissions.complete
    rw [hd]
    simp only [hexec]
    exact ⟨_, rfl, .ready deploymentID _ d hvalid hbuilt hinitial.generation rfl rfl
      (GoMap.get?_set_self ..) (GoMap.get?_set_self ..)⟩
  | false =>
    cases hc.rejected hvalid
    have hexec := exec_applyCompletion_failed hw hr hvalid hc.usable horder
    unfold Admissions.complete
    rw [hd]
    simp only [hexec]
    exact ⟨_, rfl, .failed _ hvalid rfl rfl rfl (GoMap.get?_set_self ..) hnone⟩

/-- The sources answer the draws of a completion. -/
structure Supplied (report : Validator.Report) (c c' : Controller σ) (command : CommandMeta) :
    Prop where
  draws : ∃ c₁, (report.valid = false → c₁ = c) ∧
    (report.valid = true → ∃ id, exec (newID src "deployment") c = (.ok id, c₁)) ∧
    exec (nextCommand src) c₁ = (.ok command, c')

theorem Supplied.exec_drawCompletion {c' : Controller σ} (h : Supplied src report c c' command)
    (hbuilds : ∀ id, ∃ d, initialDeployment v id command = .ok d) :
    ∃ deployment, exec (drawCompletion src v report) c = (.ok (deployment, command), c') := by
  obtain ⟨c₁, hfalse, htrue, hnext⟩ := h.draws
  unfold drawCompletion
  cases hvalid : report.valid with
  | true =>
    obtain ⟨id, hid⟩ := htrue hvalid
    obtain ⟨d, hd⟩ := hbuilds id
    refine ⟨some d, ?_⟩
    simp only [if_true, exec_bind, hid, hnext, hd]
    rfl
  | false =>
    cases hfalse hvalid
    refine ⟨none, ?_⟩
    simp only [Bool.false_eq_true, if_false, exec_bind, hnext]
    rfl

theorem AdmissionInv.reports (run : RunValidator σ) (h : AdmissionInv a) {c' : Controller σ}
    (hd : a.drives t = some (.started v validationID rest budget))
    (hreport : exec (admissionReport src run v validationID) a.controller = (.ok report, c))
    (hs : Supplied src report c c' command) :
    ∃ deployment, (Admissions.validate src run a t).2.drives t =
      some (.reported v report deployment command rest budget) := by
  have hw : Waiting a.releases v validationID := h.drives t _ hd
  obtain ⟨deployment, hdraw⟩ := hs.exec_drawCompletion src fun id =>
    initialDeployment_exists hw.valid hw.timeout id command
  refine ⟨deployment, ?_⟩
  unfold Admissions.validate
  rw [hd]
  simp only [exec_bind, hreport, hdraw, exec_pure]
  exact drives_put_self ..

/--
**Producer and store agree.** After every interleaving of version creations, resumed validations
and other writes, with any sources and any validator: a committed Version is claimed by its drive,
and the start that was reserved for it goes through, so a Version is Uploaded only while its drive
is between these steps; a drive whose validator and sources answer gets to completing, and one that
has an acceptable report for the active attempt concludes with it; and the first Deployment of a
Validating Version can always be built, and is accepted.
-/
theorem admission_agrees (run : RunValidator σ) (sources : σ) (moves : List (AdmissionMove σ)) :
    let a := (admissionMachine src run).run (newAdmissions sources) moves
    (∀ t p, a.drives t = some (.created p) →
      (a.claim t).1 = none ∧ (a.claim t).2.drives t = some (.claimed p)) ∧
    (∀ t p, a.drives t = some (.claimed p) → ∃ v, (a.start t).1 = none ∧
      (a.start t).2.drives t = some (.started v p.validationID [] 0) ∧
      SameVersion p.version v ∧ v.state = .validating ∧
      (a.start t).2.releases.versions.get? p.version.versionID = some v ∧
      (a.start t).2.releases.validationIDByVersion.get? p.version.versionID =
        some p.validationID) ∧
    (∀ k v, a.releases.versions.get? k = some v → v.state = .uploaded →
      ∃ t p, p.version = v ∧ (a.drives t = some (.created p) ∨ a.drives t = some (.claimed p))) ∧
    (∀ t v validationID rest budget report c c' command,
      a.drives t = some (.started v validationID rest budget) →
      exec (admissionReport src run v validationID) a.controller = (.ok report, c) →
      Supplied src report c c' command →
      ∃ deployment, (Admissions.validate src run a t).2.drives t =
        some (.reported v report deployment command rest budget)) ∧
    (∀ t v report deployment command rest budget validationID,
      a.drives t = some (.reported v report deployment command rest budget) →
      a.releases.validationIDByVersion.get? v.versionID = some validationID →
      Acceptable v validationID report →
      ∃ result, (a.complete t).1 = some ⟨some result, none⟩ ∧
        Concluded (a.complete t).2.releases v report command result) ∧
    (∀ k v, a.releases.versions.get? k = some v → v.state = .validating →
      ∀ id command, ∃ d, initialDeployment v id command = .ok d ∧
        (identifierPattern id = true → command.Usable →
          validateInitialDeployment d
            { v with updatedAt := command.time, resourceRevision := v.resourceRevision + 1 }
            command.appliedIndex command.time = .ok ())) := by
  intro a
  have h : AdmissionInv a := admissionInv_run src run sources moves
  refine ⟨?_, ?_, h.uploaded, fun _ _ _ _ _ _ _ _ _ => h.reports src run,
    fun _ _ _ _ _ _ _ _ => h.concludes, ?_⟩
  · intro t p hd
    rw [h.claim_eq hd]
    exact ⟨rfl, drives_put_self ..⟩
  · intro t p hd
    rw [h.start_eq hd]
    exact ⟨_, rfl, drives_put_self .., rfl, rfl, GoMap.get?_set_self .., GoMap.get?_set_self ..⟩
  · intro k v hv _ id command
    obtain ⟨-, hvalid⟩ := h.release.versions k v hv
    obtain ⟨d, hd⟩ := initialDeployment_exists hvalid (h.versions k v hv).timeout id command
    exact ⟨d, hd, fun hid hc => initialDeployment_accepted hvalid hid hc hd _⟩

end MiniCloud.LocalController
