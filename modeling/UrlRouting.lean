import UrlRouting.Main
import UrlRouting.Proofs.BasePath
import UrlRouting.Proofs.Clones.Requests
import UrlRouting.Proofs.FailedCalls
import UrlRouting.Proofs.FirstMatch
import UrlRouting.Proofs.Generated
import UrlRouting.Proofs.KnownTypes
import UrlRouting.Proofs.PlainTemplates
import UrlRouting.Proofs.Regex.Engine
import UrlRouting.Proofs.Regex.Language
import UrlRouting.Proofs.RegistrationOrder
import UrlRouting.Proofs.ReverseRouting
import UrlRouting.Proofs.RoundTrip
import UrlRouting.Proofs.Template.Anchors
import UrlRouting.Proofs.Template.CustomTypes
import UrlRouting.Proofs.Template.Defects
import UrlRouting.Proofs.Template.GroupNames
import UrlRouting.Proofs.Template.ReadBack
import UrlRouting.Proofs.LiteralScan
import UrlRouting.Proofs.RouteFiles
import UrlRouting.Proofs.Substitution
import UrlRouting.Proofs.Cache.Returns
import UrlRouting.Proofs.Cache.Stability
import UrlRouting.Proofs.Compilation
import UrlRouting.Proofs.Containers
import UrlRouting.Proofs.RequestLog
import UrlRouting.Proofs.WrittenRouteFiles
import UrlRouting.Proofs.MethodSets
import UrlRouting.Proofs.TypeTables
import UrlRouting.Proofs.Captures
