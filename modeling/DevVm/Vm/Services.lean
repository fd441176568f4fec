import DevVm.Text.Blank
import DevVm.Text.Field

/-!
# Which services the guest runs

A selector is a list of tokens, separated by commas, each of which stands for some
services or for none. `selected` lists the services in the order in which the tokens first
call for them, each once.
-/

namespace DevVm

/-- The services a guest can run. -/
inductive Service where
  | rabbitmq
  | redis
  | springCloudServices
deriving DecidableEq, Repr

namespace Service

/-- A service's name. -/
def name : Service → String
  | rabbitmq => "rabbitmq"
  | redis => "redis"
  | springCloudServices => "spring-cloud-services"

/-- The services a token stands for. Spring Cloud Services needs RabbitMQ, which
therefore comes with it. -/
def ofToken (token : List Char) : List Service :=
  if token = "all".toList then [rabbitmq, redis, springCloudServices]
  else if token = "default".toList then [rabbitmq, redis]
  else if token = "scs".toList ∨ token = springCloudServices.name.toList then
    [rabbitmq, springCloudServices]
  else if token = rabbitmq.name.toList then [rabbitmq]
  else if token = redis.name.toList then [redis]
  else []

/-- The tokens of a selector. A blank selector stands for the default. -/
def tokens (selector : List Char) : List (List Char) :=
  if Text.trim selector = [] then ["default".toList]
  else (Text.fields ',' selector).map Text.trim

/-- A list with one more service at its end, unless it is there already. -/
def adding (services : List Service) (service : Service) : List Service :=
  if service ∈ services then services else services ++ [service]

/-- The services a selector asks for, in the order of their first mention. -/
def selected (selector : String) : List Service :=
  ((tokens selector.toList).flatMap ofToken).foldl adding []

/-- The names of services, separated by commas. -/
def names (services : List Service) : String :=
  String.ofList (Text.joinWith [','] (services.map (·.name.toList)))

/-- The selector that spells out what a selector asks for. -/
def normalize (selector : String) : String := names (selected selector)

end Service

end DevVm
