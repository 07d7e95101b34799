import PlatformWiring.Proofs.Hierarchy.Cycle
import PlatformWiring.Proofs.Round
import PlatformWiring.Wirefile.Schema

/-!
# The order of declarations

A Wirefile may declare its types in any order, and its constructors too as long as those of one
steps type stay in order. What is planned is sorted first, so that it depends on nothing but what
the relation says about each steps type, and what a catalog answers depends on nothing but what a
look-up finds. Only the log shows the order of declarations, since the relation is logged as it was
recorded.
-/

namespace PlatformWiring

universe u

/-! ## Plans

A plan is made of three sorted lists: the actions types, the steps types, and one constructor for
each of the latter. Sorting forgets the order of declarations, and what is left in the lists is what
the relation says about each steps type. -/

namespace Requirements.Agrees

variable {r r' : Requirements} (h : r.Agrees r')

include h

/-- Relations that agree list the same actions types, and so the sorted lists are equal. -/
theorem sortedActions_eq : r.sortedActions = r'.sortedActions :=
  TypeName.sort_eq_of_perm h.perm_actionsTypes

theorem sortedSteps_eq : r.sortedSteps = r'.sortedSteps :=
  TypeName.sort_eq_of_perm h.perm_stepsTypes

/-- So are the constructors, which are looked up for the sorted steps types. -/
theorem sortedSignatures_eq : r.sortedSignatures = r'.sortedSignatures := by
  have hrequired : r.requiredBy = r'.requiredBy := funext h.requiredBy_eq
  rw [sortedSignatures, sortedSignatures, h.sortedSteps_eq, hrequired]

/-- The plan depends on what each steps type requires and on nothing else, and so do its
complaints. -/
theorem plan_eq (l : Layout) (platforms : Selection) :
    l.plan platforms r = l.plan platforms r' := by
  rw [Layout.plan, Layout.plan, h.sortedSignatures_eq, h.sortedActions_eq]

end Requirements.Agrees

/-! ## Rounds

A round logs the relation before it plans, and this event holds the edges as they were recorded. So
two rounds cannot be equal when only the order of declarations differs. `RoundResult.Alike` asks for
all that is left: the state of the sink, the outcome and the reports. -/

/-- The rounds have the same result and the same reports; they may differ in what is logged. -/
structure RoundResult.Alike {σ : Type u} (a b : RoundResult σ) : Prop where
  /-- the sink is the same afterwards -/
  state : a.state = b.state
  /-- so is the outcome, or the reason to stop early -/
  outcome : a.outcome = b.outcome
  /-- so are the reports, in order -/
  reports : a.signals.filterMap (·.report?) = b.signals.filterMap (·.report?)

namespace Round

variable {σ : Type u} {r r' : Requirements}

/-- What a round emits is alike if the relations agree, since it looks at the sorted actions types
and at the number of steps types only. -/
theorem emit_alike (h : r.Agrees r') (l : TypeLookup) (k : Sink σ) (s : σ) (config : RoundConfig)
    (units : List SourceUnit) : (emit l k s config r units).Alike (emit l k s config r' units) := by
  constructor <;> simp [emit, h.sortedActions_eq, h.size_eq, Signal.report?]

/-- The round depends on what each steps type requires and on nothing else. -/
theorem run_alike {signatures signatures' : List StepsSignature}
    (h : (Requirements.ofSignatures signatures).Agrees (.ofSignatures signatures'))
    (l : TypeLookup) (k : Sink σ) (s : σ) (config : RoundConfig) :
    (run l k s config signatures).Alike (run l k s config signatures') := by
  rw [run, run, runFor, runFor, h.isEmpty_eq, h.plan_eq]
  split
  · exact ⟨rfl, rfl, rfl⟩
  · split
    · exact ⟨rfl, rfl, rfl⟩
    · split
      · exact ⟨rfl, rfl, rfl⟩
      · exact emit_alike h l k s config _

end Round

/-! ## Wirefiles

Two Wirefiles that differ in order make two catalogs that differ in order. Looking up a type finds
the same in both, as no name is declared twice. Whether there is a circle depends on look-ups only,
so both are accepted or neither is. The relations agree because the constructors of each steps type
come in the same order. -/

namespace Wirefile

/-- The Wirefiles differ in the order of their types and of their constructors at most, and the
constructors of each steps type come in the same order. -/
structure SameUpToOrder (w w' : Wirefile) : Prop where
  /-- the version is the same -/
  version : w.version = w'.version
  /-- so are the platforms -/
  platforms : w.platforms = w'.platforms
  /-- so is the layout -/
  layout : w.layout = w'.layout
  /-- the types are the same in some order -/
  types : w.types.Perm w'.types
  /-- so are the constructors -/
  steps : w.steps.Perm w'.steps
  /-- those of one steps type keep their order -/
  own : ∀ t, w.steps.filter (·.steps = t) = w'.steps.filter (·.steps = t)

/-- The catalog has the declarations of the Wirefile. -/
structure Declares (w : Wirefile) (c : Catalog) : Prop where
  /-- it has its types, in order -/
  types : c.types = w.types.map (·.resolve)
  /-- and its constructors, in order -/
  signatures : c.signatures = w.steps

/-- What becomes of a Wirefile: a type is declared twice, or there is a circle among its types, or
its declarations make a catalog. -/
theorem catalog_cases (w : Wirefile) :
    (¬(w.types.map (·.name)).Nodup ∧ ∃ e, w.catalog = .error (.duplicate e)) ∨
    ∃ c, w.Declares c ∧ (w.types.map (·.name)).Nodup ∧
      ((¬c.Acyclic ∧ ∃ e, w.catalog = .error (.cycle e)) ∨ c.Acyclic ∧ w.catalog = .ok c) := by
  have hnames : (Catalog.empty.types ++ w.types.map (·.resolve)).map (·.name) =
      w.types.map (·.name) := by
    simp [Catalog.empty, TypeEntry.resolve, Function.comp_def]
  rcases Catalog.empty.insertAll_cases (w.types.map (·.resolve)) with
    ⟨hnodup, typed, htyped, htypes, hsignatures⟩ | ⟨hnodup, e, he⟩
  · have hdeclares : w.Declares (w.steps.foldl Catalog.declare typed) :=
      ⟨(Catalog.types_foldl_declare typed _).trans htypes,
        by rw [Catalog.signatures_foldl_declare, hsignatures]; rfl⟩
    refine Or.inr ⟨_, hdeclares, hnames ▸ hnodup, ?_⟩
    rcases (w.steps.foldl Catalog.declare typed).checkAcyclic_cases with
      ⟨hcheck, hacyclic⟩ | ⟨⟨e, hcheck⟩, hcircle⟩
    · exact Or.inr ⟨hacyclic, by simp only [catalog, htyped, hcheck]⟩
    · exact Or.inl ⟨hcircle, e, by simp only [catalog, htyped, hcheck]⟩
  · exact Or.inl ⟨hnames ▸ hnodup, e, by simp only [catalog, he]⟩

namespace SameUpToOrder

variable {w w' : Wirefile} {c c' : Catalog} (h : w.SameUpToOrder w')

include h

/-- Both catalogs find the same types. -/
theorem find?_eq (hc : w.Declares c) (hc' : w'.Declares c') : c.find? = c'.find? := by
  refine Catalog.find?_eq_of_perm ?_
  rw [hc.types, hc'.types]
  exact h.types.map _

/-- Both relations say the same about each steps type. -/
theorem agrees (hc : w.Declares c) (hc' : w'.Declares c') :
    (Requirements.ofSignatures c.signatures).Agrees (.ofSignatures c'.signatures) := by
  rw [hc.signatures, hc'.signatures]
  exact Requirements.agrees_ofSignatures h.own

/-- **The order of declarations does not matter.** Either both Wirefiles declare a type twice, or
both have a circle among their types, or both have a catalog. In the last case a round does the same
for both with any sink and any configuration: it hands the sink the same units, it makes the same
reports, and it ends alike, whether it runs to its end or stops early. -/
theorem rounds_alike :
    ((∃ e, w.catalog = .error (.duplicate e)) ↔ ∃ e, w'.catalog = .error (.duplicate e)) ∧
    ((∃ e, w.catalog = .error (.cycle e)) ↔ ∃ e, w'.catalog = .error (.cycle e)) ∧
    ∀ c, w.catalog = .ok c → ∃ c', w'.catalog = .ok c' ∧
      ∀ {σ : Type u} (k : Sink σ) (s : σ) (config : RoundConfig),
        Round.trace c.lookup k s config c.signatures =
            Round.trace c'.lookup k s config c'.signatures ∧
          (Round.run c.lookup k s config c.signatures).Alike
            (Round.run c'.lookup k s config c'.signatures) := by
  have hnodup : (w.types.map (·.name)).Nodup ↔ (w'.types.map (·.name)).Nodup :=
    (h.types.map _).nodup_iff
  rcases w.catalog_cases with ⟨hdup, e, he⟩ | ⟨c, hc, hnames, hcase⟩
  · rcases w'.catalog_cases with ⟨-, e', he'⟩ | ⟨-, -, hnames', -⟩
    · simp [he, he']
    · exact absurd (hnodup.2 hnames') hdup
  · rcases w'.catalog_cases with ⟨hdup', -⟩ | ⟨c', hc', -, hcase'⟩
    · exact absurd (hnodup.1 hnames) hdup'
    · have hfind := h.find?_eq hc hc'
      rcases hcase with ⟨hcircle, e, he⟩ | ⟨hacyclic, hok⟩
      · rcases hcase' with ⟨-, e', he'⟩ | ⟨hacyclic', -⟩
        · simp [he, he']
        · exact absurd ((Catalog.acyclic_congr hfind).2 hacyclic') hcircle
      · rcases hcase' with ⟨hcircle', -⟩ | ⟨-, hok'⟩
        · exact absurd ((Catalog.acyclic_congr hfind).1 hacyclic) hcircle'
        · refine ⟨by simp [hok, hok'], by simp [hok, hok'], fun c₁ hc₁ => ⟨c', hok', ?_⟩⟩
          cases hok.symm.trans hc₁
          intro σ k s config
          have halike := h.agrees hc hc'
          rw [Catalog.lookup_congr hfind]
          exact ⟨congrArg Prod.snd (Round.run_alike halike _ k.traced (s, []) config).state,
            Round.run_alike halike _ k s config⟩

end SameUpToOrder

/-- A base type with an implementation, and two steps types, one of them declared in two parts. -/
def shop : Wirefile where
  version := ⟨1, 0, 0, "", ""⟩
  platforms := none
  layout := .standard
  types :=
    [⟨⟨"a", "Cart"⟩, .interface, none, [], []⟩,
      ⟨⟨"a", "IOSCart"⟩, .class, none, [⟨"a", "Cart"⟩], []⟩]
  steps :=
    [⟨⟨"s", "Pay"⟩, [⟨"a", "Cart"⟩]⟩, ⟨⟨"s", "Browse"⟩, [⟨"a", "Cart"⟩]⟩,
      ⟨⟨"s", "Pay"⟩, [⟨"a", "Bank"⟩]⟩]

/-- The same project in another order. -/
def shopReordered : Wirefile where
  version := ⟨1, 0, 0, "", ""⟩
  platforms := none
  layout := .standard
  types :=
    [⟨⟨"a", "IOSCart"⟩, .class, none, [⟨"a", "Cart"⟩], []⟩,
      ⟨⟨"a", "Cart"⟩, .interface, none, [], []⟩]
  steps :=
    [⟨⟨"s", "Browse"⟩, [⟨"a", "Cart"⟩]⟩, ⟨⟨"s", "Pay"⟩, [⟨"a", "Cart"⟩]⟩,
      ⟨⟨"s", "Pay"⟩, [⟨"a", "Bank"⟩]⟩]

/-- Both projects have catalogs, and their rounds do the same. -/
theorem shop_rounds_alike : ∃ c c', shop.catalog = .ok c ∧ shopReordered.catalog = .ok c' ∧
    ∀ {σ : Type u} (k : Sink σ) (s : σ) (config : RoundConfig),
      Round.trace c.lookup k s config c.signatures =
          Round.trace c'.lookup k s config c'.signatures ∧
        (Round.run c.lookup k s config c.signatures).Alike
          (Round.run c'.lookup k s config c'.signatures) := by
  have hsame : shop.SameUpToOrder shopReordered := by
    refine ⟨rfl, rfl, rfl, by decide, by decide, fun t => ?_⟩
    by_cases hpay : (⟨"s", "Pay"⟩ : TypeName) = t
    · subst hpay
      decide
    · simp [shop, shopReordered, List.filter_cons, hpay]
  obtain ⟨-, -, hrounds⟩ := hsame.rounds_alike
  obtain ⟨c, hc⟩ : ∃ c, shop.catalog = .ok c := by
    rcases shop.catalog_cases with ⟨hdup, -⟩ | ⟨c, hc, -, ⟨hcircle, -⟩ | ⟨-, hok⟩⟩
    · exact absurd (by decide) hdup
    · refine absurd (Catalog.acyclic_of_not_looped fun d hd => ?_) hcircle
      have hfind := Catalog.find?_eq_some_iff.2 ⟨hd, rfl⟩
      have hbase : ¬c.Looped ⟨"a", "Cart"⟩ :=
        Catalog.not_looped_of_supertypes
          (Catalog.find?_eq_some_iff.2 ⟨by rw [hc.types]; exact List.mem_cons_self, rfl⟩)
          fun s hs => (List.not_mem_nil hs).elim
      rw [hc.types] at hd
      rcases List.mem_cons.1 hd with rfl | hd
      · exact hbase
      · rw [List.mem_singleton.1 hd] at hfind ⊢
        refine Catalog.not_looped_of_supertypes hfind fun s hs => ?_
        rwa [List.mem_singleton.1 hs]
    · exact ⟨c, hok⟩
  obtain ⟨c', hc', halike⟩ := hrounds c hc
  exact ⟨c, c', hc, hc', halike⟩

end Wirefile

end PlatformWiring
