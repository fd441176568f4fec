import DevVm.Vm.Services
import Mathlib.Data.List.Induction
import Mathlib.Data.List.Nodup

/-!
# What selectors select

Selectors compose: putting one behind another adds what the second one asks for and the first one
does not (`selectors_compose`). So a selector counts only through its tokens, and of these only
through those that stand for something, each at its first place.

The services are gathered token by token, each one unless it is there already. What has been
gathered from a list onto a start is the start, followed by what the list gives on its own without
what is in the start (`foldl_adding_eq`). From this fact about the accumulator the rest follows.
-/

namespace DevVm.Service

/-! ## Gathering services -/

section Gathering

variable {services start more : List Service} {service : Service}

theorem adding_of_mem (h : service ∈ services) : adding services service = services := if_pos h

theorem adding_of_not_mem (h : service ∉ services) :
    adding services service = services ++ [service] := if_neg h

theorem mem_adding {other : Service} :
    other ∈ adding services service ↔ other ∈ services ∨ other = service := by
  by_cases h : service ∈ services
  · rw [adding_of_mem h]
    exact ⟨.inl, fun hor => hor.elim id fun heq => heq ▸ h⟩
  · rw [adding_of_not_mem h, List.mem_append, List.mem_singleton]

theorem mem_foldl_adding :
    service ∈ more.foldl adding start ↔ service ∈ start ∨ service ∈ more := by
  induction more generalizing start with
  | nil => simp
  | cons first more ih => rw [List.foldl_cons, ih, mem_adding, List.mem_cons, or_assoc]

theorem nodup_foldl_adding (h : start.Nodup) : (more.foldl adding start).Nodup := by
  induction more generalizing start with
  | nil => exact h
  | cons first more ih =>
    refine ih ?_
    by_cases hfirst : first ∈ start
    · rwa [adding_of_mem hfirst]
    · rw [adding_of_not_mem hfirst]
      rw [← List.concat_eq_append]
      exact h.concat hfirst

/-- What is gathered onto a start is what is gathered on its own, less the start. -/
theorem foldl_adding_eq (start more : List Service) :
    more.foldl adding start = start ++ (more.foldl adding []).filter (· ∉ start) := by
  induction more using List.reverseRecOn with
  | nil => simp
  | append_singleton more last ih =>
    -- The last service changes both sides alike: it is new to the first one just if it is new to
    -- the start and to what was gathered on its own.
    rw [List.foldl_concat, List.foldl_concat, ih]
    by_cases hown : last ∈ more.foldl adding []
    · rw [adding_of_mem hown, adding_of_mem]
      by_cases hstart : last ∈ start
      · exact List.mem_append_left _ hstart
      · exact List.mem_append_right _ (List.mem_filter.mpr ⟨hown, decide_eq_true hstart⟩)
    · rw [adding_of_not_mem hown, List.filter_append]
      by_cases hstart : last ∈ start
      · rw [adding_of_mem (List.mem_append_left _ hstart)]
        simp [hstart]
      · rw [adding_of_not_mem]
        · simp [hstart]
        · simp [hstart, hown]

/-- Services are gathered in the order in which they first occur. -/
theorem pairwise_idxOf_foldl_adding (mentioned : List Service) :
    (mentioned.foldl adding []).Pairwise fun a b => mentioned.idxOf a < mentioned.idxOf b := by
  induction mentioned using List.reverseRecOn with
  | nil => exact .nil
  | append_singleton mentioned last ih =>
    have hmem {a : Service} (h : a ∈ mentioned.foldl adding []) : a ∈ mentioned :=
      (mem_foldl_adding.mp h).resolve_left List.not_mem_nil
    have hfirst : (mentioned.foldl adding []).Pairwise fun a b =>
        (mentioned ++ [last]).idxOf a < (mentioned ++ [last]).idxOf b :=
      ih.imp_of_mem fun ha hb hlt => by
        rwa [List.idxOf_append, List.idxOf_append, if_pos (hmem ha), if_pos (hmem hb)]
    rw [List.foldl_concat]
    by_cases hlast : last ∈ mentioned.foldl adding []
    · rwa [adding_of_mem hlast]
    · rw [adding_of_not_mem hlast, List.pairwise_append]
      refine ⟨hfirst, List.pairwise_singleton _ _, fun a ha b hb => ?_⟩
      obtain rfl := List.mem_singleton.mp hb
      have hnot : b ∉ mentioned := fun h => hlast (mem_foldl_adding.mpr (.inr h))
      rw [List.idxOf_append, List.idxOf_append, if_pos (hmem ha), if_neg hnot]
      exact Nat.lt_add_left _ (List.idxOf_lt_length_of_mem (hmem ha))

end Gathering

/-! ## RabbitMQ comes first -/

/-- Spring Cloud Services, which needs RabbitMQ, is listed only behind it. -/
def NeedsMet (services : List Service) : Prop :=
  ∀ before after, services = before ++ springCloudServices :: after → rabbitmq ∈ before

section NeedsMet

variable {services more : List Service} {service : Service}

theorem needsMet_nil : NeedsMet [] := fun before _ h => by
  have := congrArg List.length h
  simp at this

/-- One more service may follow if RabbitMQ is there when it is needed. -/
theorem needsMet_concat : NeedsMet (services ++ [service]) ↔
    NeedsMet services ∧ (service = springCloudServices → rabbitmq ∈ services) := by
  constructor
  · intro h
    refine ⟨fun before after heq => h before (after ++ [service]) (by simp [heq]), fun heq => ?_⟩
    exact h services [] (by rw [heq])
  · rintro ⟨h, hlast⟩ before after heq
    rcases List.eq_nil_or_concat after with rfl | ⟨after, last, rfl⟩
    · obtain ⟨rfl, hservice⟩ := List.append_inj' heq rfl
      exact hlast (List.singleton_inj.mp hservice)
    · have hcut : services = before ++ springCloudServices :: after := by
        have hends : services ++ [service] =
            (before ++ springCloudServices :: after) ++ [last] := by simpa using heq
        exact (List.append_inj' hends rfl).1
      exact h before after hcut

theorem NeedsMet.append (h : NeedsMet services) (hmore : NeedsMet more) :
    NeedsMet (services ++ more) := by
  induction more using List.reverseRecOn with
  | nil => rwa [List.append_nil]
  | append_singleton more last ih =>
    obtain ⟨hmore, hlast⟩ := needsMet_concat.mp hmore
    rw [← List.append_assoc]
    exact needsMet_concat.mpr ⟨ih hmore, fun heq => List.mem_append_right _ (hlast heq)⟩

theorem NeedsMet.foldl_adding (h : NeedsMet services) (hmore : NeedsMet more) :
    NeedsMet (more.foldl adding services) := by
  induction more using List.reverseRecOn with
  | nil => exact h
  | append_singleton more last ih =>
    obtain ⟨hmore, hlast⟩ := needsMet_concat.mp hmore
    rw [List.foldl_concat]
    by_cases hmem : last ∈ more.foldl adding services
    · rw [adding_of_mem hmem]
      exact ih hmore
    · rw [adding_of_not_mem hmem]
      exact needsMet_concat.mpr ⟨ih hmore, fun heq => mem_foldl_adding.mpr (.inr (hlast heq))⟩

theorem needsMet_ofToken (token : List Char) : NeedsMet (ofToken token) := by
  have hone : NeedsMet [rabbitmq] := (@needsMet_concat [] _).mpr ⟨needsMet_nil, nofun⟩
  have htwo : NeedsMet [rabbitmq, redis] := (@needsMet_concat [_] _).mpr ⟨hone, nofun⟩
  unfold ofToken
  split
  · exact (@needsMet_concat [_, _] _).mpr ⟨htwo, fun _ => List.mem_cons_self⟩
  split
  · exact htwo
  split
  · exact (@needsMet_concat [_] _).mpr ⟨hone, fun _ => List.mem_cons_self⟩
  split
  · exact hone
  split
  · exact (@needsMet_concat [] _).mpr ⟨needsMet_nil, nofun⟩
  · exact needsMet_nil

end NeedsMet

/-! ## Tokens -/

/-- A selector that asks for nothing in particular. -/
def Blank (selector : String) : Prop := ∀ c ∈ selector.toList, Text.isBlank c = true

/-- The services that the tokens of a selector stand for, one token after the other. -/
def mentioned (selector : String) : List Service := (tokens selector.toList).flatMap ofToken

/-- The tokens that count: without the blanks around them, those that stand for something, each
at its first place. -/
def essence (selector : String) : List (List Char) :=
  (((Text.fields ',' selector.toList).map Text.trim).filter (ofToken · ≠ [])).eraseDups

section Tokens

variable {s t : String}

theorem tokens_of_not_blank (h : ¬Blank s) :
    tokens s.toList = (Text.fields ',' s.toList).map Text.trim :=
  if_neg (mt Text.trim_eq_nil_iff.mp h)

theorem toList_comma (s t : String) : (s ++ "," ++ t).toList = s.toList ++ ',' :: t.toList := by
  rw [String.toList_append, String.toList_append, List.append_assoc]
  rfl

theorem mentioned_comma (hs : ¬Blank s) (ht : ¬Blank t) :
    mentioned (s ++ "," ++ t) = mentioned s ++ mentioned t := by
  have hboth : ¬Blank (s ++ "," ++ t) := fun h =>
    hs fun c hc => h c (toList_comma s t ▸ List.mem_append_left _ hc)
  unfold mentioned
  rw [tokens_of_not_blank hs, tokens_of_not_blank ht, tokens_of_not_blank hboth, toList_comma,
    Text.fields_append_sep, List.map_append, List.flatMap_append]

/-- Tokens whose services are there already add nothing. -/
theorem foldl_adding_skip {start : List Service} {token : List Char}
    (h : ∀ service ∈ ofToken token, service ∈ start) (more : List (List Char)) :
    ((more.filter fun other => !other == token).flatMap ofToken).foldl adding start =
      (more.flatMap ofToken).foldl adding start := by
  induction more generalizing start with
  | nil => rfl
  | cons first more ih =>
    rw [List.flatMap_cons, List.foldl_append]
    by_cases hfirst : first = token
    · subst hfirst
      have hnone : (ofToken first).foldl adding start = start := by
        rw [foldl_adding_eq, List.filter_eq_nil_iff.mpr, List.append_nil]
        intro service hservice
        simpa using h service ((mem_foldl_adding.mp hservice).resolve_left List.not_mem_nil)
      rw [List.filter_cons_of_neg (by simp), hnone]
      exact ih h
    · rw [List.filter_cons_of_pos (by simpa using hfirst), List.flatMap_cons, List.foldl_append]
      exact ih fun service hservice => mem_foldl_adding.mpr (.inl (h service hservice))

/-- A token counts at its first place only. -/
theorem foldl_adding_eraseDups (start : List Service) (all : List (List Char)) :
    (all.eraseDups.flatMap ofToken).foldl adding start =
      (all.flatMap ofToken).foldl adding start := by
  match all with
  | [] => rfl
  | token :: more =>
    have hthere : ∀ service ∈ ofToken token, service ∈ (ofToken token).foldl adding start :=
      fun service h => mem_foldl_adding.mpr (.inr h)
    rw [List.eraseDups_cons, List.flatMap_cons, List.flatMap_cons, List.foldl_append,
      List.foldl_append, foldl_adding_eraseDups, foldl_adding_skip hthere]
termination_by all.length
decreasing_by exact Nat.lt_succ_of_le (List.length_filter_le _ _)

theorem flatMap_filter_ofToken (all : List (List Char)) :
    (all.filter (ofToken · ≠ [])).flatMap ofToken = all.flatMap ofToken := by
  induction all with
  | nil => rfl
  | cons token more ih =>
    by_cases h : ofToken token = []
    · rw [List.filter_cons_of_neg (by simpa using h), List.flatMap_cons, h, ih, List.nil_append]
    · rw [List.filter_cons_of_pos (by simpa using h), List.flatMap_cons, List.flatMap_cons, ih]

/-- Only the tokens that count decide what is selected. -/
theorem selected_eq_of_essence (hs : ¬Blank s) :
    selected s = ((essence s).flatMap ofToken).foldl adding [] := by
  unfold selected essence
  rw [tokens_of_not_blank hs, foldl_adding_eraseDups, flatMap_filter_ofToken]

theorem needsMet_selected (s : String) : NeedsMet (selected s) := by
  have hall (all : List (List Char)) : NeedsMet (all.flatMap ofToken) := by
    induction all with
    | nil => exact needsMet_nil
    | cons token more ih => exact (needsMet_ofToken token).append ih
  exact needsMet_nil.foldl_adding (hall _)

end Tokens

/-! ## Names -/

section Names

variable {services : List Service}

theorem comma_not_mem_name (service : Service) : ',' ∉ service.name.toList := by
  cases service <;> decide

theorem trim_name (service : Service) : Text.trim service.name.toList = service.name.toList := by
  cases service <;> decide

theorem ofToken_name (service : Service) :
    ofToken service.name.toList =
      if service = springCloudServices then [rabbitmq, springCloudServices] else [service] := by
  cases service <;> decide

/-- The names of services are read back one by one. -/
theorem fields_names (h : services ≠ []) :
    Text.fields ',' (names services).toList = services.map (·.name.toList) := by
  rw [names, String.toList_ofList, Text.joinWith_eq_intercalate]
  refine Text.fields_intercalate (by simpa using h) fun part hpart => ?_
  obtain ⟨service, -, rfl⟩ := List.mem_map.mp hpart
  exact comma_not_mem_name service

theorem not_blank_names (h : services ≠ []) : ¬Blank (names services) := by
  obtain ⟨service, more, rfl⟩ := List.exists_cons_of_ne_nil h
  have hname : service.name.toList <+: (names (service :: more)).toList := by
    rw [names, String.toList_ofList]
    cases more with
    | nil => exact List.prefix_refl _
    | cons next more => exact (List.prefix_append _ _).trans (List.prefix_append _ _)
  have hletter : ∃ c ∈ service.name.toList, Text.isBlank c = false := by
    cases service <;> exact ⟨_, List.mem_cons_self, rfl⟩
  intro hall
  obtain ⟨c, hc, hblank⟩ := hletter
  rw [hall c (hname.subset hc)] at hblank
  cases hblank

theorem mentioned_names (h : services ≠ []) :
    mentioned (names services) = services.flatMap fun service => ofToken service.name.toList := by
  unfold mentioned
  rw [tokens_of_not_blank (not_blank_names h), fields_names h, List.map_map, List.flatMap_map]
  exact congrArg (services.flatMap ·) (funext fun service => congrArg ofToken (trim_name service))

/-- Services that are listed properly are selected by their names as they are listed. -/
theorem selected_names (hne : services ≠ []) (hnodup : services.Nodup) (h : NeedsMet services) :
    selected (names services) = services := by
  have hmentioned := mentioned_names hne
  unfold mentioned at hmentioned
  unfold selected
  rw [hmentioned]
  clear hmentioned hne
  induction services using List.reverseRecOn with
  | nil => rfl
  | append_singleton services last ih =>
    obtain ⟨h, hlast⟩ := needsMet_concat.mp h
    rw [← List.concat_eq_append, List.nodup_concat] at hnodup
    rw [List.flatMap_append, List.foldl_append, ih hnodup.2 h, List.flatMap_singleton,
      ofToken_name]
    split
    next heq =>
      -- Its name stands for RabbitMQ as well, which is listed already.
      subst heq
      rw [List.foldl_cons, adding_of_mem (hlast rfl)]
      exact adding_of_not_mem hnodup.1
    next => exact adding_of_not_mem hnodup.1

end Names

/-! ## Composing selectors -/

/-- What a selector selects has no repetitions and holds a service just if one of its tokens stands
for it, in the order of first mention, with Spring Cloud Services behind RabbitMQ only. These are
the services that the normal form spells out. One selector behind another adds to it what only the
second one asks for, and selectors with the same tokens that count select the same, unless one is
blank. A normal form with any service in it is its own. -/
theorem selectors_compose (s : String) :
    (selected s).Nodup ∧
      (∀ service, service ∈ selected s ↔ ∃ token ∈ tokens s.toList, service ∈ ofToken token) ∧
      ((selected s).Pairwise fun a b => (mentioned s).idxOf a < (mentioned s).idxOf b) ∧
      (∀ before after, selected s = before ++ springCloudServices :: after → rabbitmq ∈ before) ∧
      (if selected s = [] then normalize s = "" else
        Text.fields ',' (normalize s).toList = (selected s).map (·.name.toList)) ∧
      (¬Blank s → ∀ t, ¬Blank t →
        selected (s ++ "," ++ t) = selected s ++ (selected t).filter (· ∉ selected s) ∧
          (essence s = essence t → selected s = selected t ∧ normalize s = normalize t)) ∧
      (normalize s ≠ "" → normalize (normalize s) = normalize s) := by
  have hnodup : (selected s).Nodup := nodup_foldl_adding List.nodup_nil
  refine ⟨hnodup, fun service => ?_, pairwise_idxOf_foldl_adding _, needsMet_selected s, ?_,
    fun hs t ht => ⟨?_, fun hessence => ?_⟩, fun hne => ?_⟩
  · rw [← List.mem_flatMap]
    exact mem_foldl_adding.trans (or_iff_right List.not_mem_nil)
  · split
    next hnone => rw [normalize, hnone]; rfl
    next hsome => exact fields_names hsome
  · calc
      selected (s ++ "," ++ t) = (mentioned s ++ mentioned t).foldl adding [] :=
        congrArg (List.foldl adding []) (mentioned_comma hs ht)
      _ = (mentioned t).foldl adding (selected s) := List.foldl_append
      _ = selected s ++ (selected t).filter (· ∉ selected s) := foldl_adding_eq _ _
  · have hselected : selected s = selected t := by
      rw [selected_eq_of_essence hs, selected_eq_of_essence ht, hessence]
    exact ⟨hselected, congrArg names hselected⟩
  · have hsome : selected s ≠ [] := fun hnone => hne (by rw [normalize, hnone]; rfl)
    exact congrArg names (selected_names hsome hnodup (needsMet_selected s))

-- What each token stands for, one that is unknown among them.
example : (["all", "default", "scs", "spring-cloud-services", "rabbitmq", "redis", "mysql"].map
    fun token => ofToken token.toList) =
      [[rabbitmq, redis, springCloudServices], [rabbitmq, redis], [rabbitmq, springCloudServices],
        [rabbitmq, springCloudServices], [rabbitmq], [redis], []] := by decide

example : normalize " " = "rabbitmq,redis" ∧
    normalize "redis, scs,mysql" = "redis,rabbitmq,spring-cloud-services" := by decide +kernel

end DevVm.Service
