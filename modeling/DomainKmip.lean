import DomainKmip.BatchAttribution
import DomainKmip.UrlRoundTrip
import DomainKmip.RsaForms
import DomainKmip.Destroying
import DomainKmip.SignatureForms
import DomainKmip.EcdsaKeys
import DomainKmip.RsaParsers
import DomainKmip.QueueConservation
import DomainKmip.UrlStability
import DomainKmip.ConnectionPools
import DomainKmip.ConcurrentKeys
import DomainKmip.ReloadedKeys
import DomainKmip.Crashes
import DomainKmip.KeyReadings
import DomainKmip.Accounts
import DomainKmip.PublishedKeys
import DomainKmip.Outcomes
import DomainKmip.WorkingServers
